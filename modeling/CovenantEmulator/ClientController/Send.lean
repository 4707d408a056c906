import CovenantEmulator.Types
import CovenantEmulator.Golang.Text
import Mathlib.Data.List.Perm.Basic

/-! Sending a batch of messages, dropping the ones the chain names in its errors. -/
namespace CovenantEmulator

open Golang

structure RelayerTxResponse where
  txHash : String
  events : List RelayerEvent
  deriving DecidableEq, Repr

/-- One call of `ReliablySendMsgs` and its result; a nil response with a nil error is `ok none`. -/
structure Sent (μ : Type) where
  msgs : List μ
  res : Except String (Option RelayerTxResponse)
  deriving Repr

/-- The chain, and the batches sent to it so far. -/
structure Net (μ τ : Type) where
  chain : τ
  sent : List (Sent μ)

/-- The text of an error of the Cosmos SDK, which is one line. -/
structure SdkError where
  text : String
  oneLine : '\n' ∉ text.toList

def expectedErrors (errDuplicatedCovenantSig : SdkError) : List String :=
  [errDuplicatedCovenantSig.text]

def errorContained (err : String) (errList : List String) : Bool :=
  errList.any fun e => contains err e

/-- The class `\s` of the index pattern. -/
def isSpace (c : Char) : Bool :=
  c = '\t' || c = '\n' || c = '\x0c' || c = '\r' || c = ' '

/-- `message index:\s*(\d+)` at the start of the text. Spaces and digits are disjoint, so taking
all of each is what the pattern matches. -/
def matchMessageIndex (text : List Char) : Option (List Char) :=
  if "message index:".toList <+: text then
    let digits := ((text.drop "message index:".length).dropWhile isSpace).takeWhile Char.isDigit
    if digits = [] then none else some digits
  else none

/-- The group of the leftmost match. -/
def findStringSubmatch : List Char → Option (List Char)
  | [] => none
  | c :: text =>
    match matchMessageIndex (c :: text) with
    | some digits => some digits
    | none => findStringSubmatch text

def failedMessageIndex (err : String) : Int × Bool :=
  match findStringSubmatch err.toList with
  | some digits =>
    match atoi digits with
    | some index => (index, true)
    | none => (0, false)
  | none => (0, false)

section
variable {μ τ : Type}

/-- `append(msgs[:index], msgs[index+1:]...)`, or the batch itself out of range. -/
def removeMsgAtIndex (msgs : List μ) (index : Int) : List μ :=
  if index < 0 ∨ index ≥ msgs.length then msgs
  else msgs.take index.toNat ++ msgs.drop (index.toNat + 1)

def batchRetries (msgs : List μ) (maxRetiresBatchRemovingMsgs : UInt64) : Nat :=
  if maxRetiresBatchRemovingMsgs = 0 then msgs.length
  else if maxRetiresBatchRemovingMsgs.toNat > msgs.length then msgs.length
  else maxRetiresBatchRemovingMsgs.toNat

variable (dup : SdkError) (send : List μ → Go τ (Option RelayerTxResponse))

def onChain {α : Type} (m : Go τ α) : Go (Net μ τ) α :=
  Go.zoom Net.chain (fun n chain => { n with chain := chain }) m

def reliablySendMsgs (msgs : List μ) : Go (Net μ τ) (Option RelayerTxResponse) := do
  let res ← Go.attempt (onChain (send msgs))
  Go.modify fun n => { n with sent := n.sent ++ [⟨msgs, res⟩] }
  Go.lift (.ofExcept res)

/-- After the loop: an expected error among the joined ones counts as success. -/
def afterRetries (err : Option String) : Go (Net μ τ) TxResponse :=
  match err with
  | none => Go.fail "failed to send batch of msgs: %!w(<nil>)"
  | some err =>
    if errorContained err (expectedErrors dup) then pure ⟨"", []⟩
    else Go.fail ("failed to send batch of msgs: " ++ err)

/-- The loop, with the number of retries left and the errors joined so far. -/
def resendLoop : Nat → List μ → Option String → Go (Net μ τ) TxResponse
  | 0, _, err => afterRetries dup err
  | retries + 1, msgs, err => do
    let res ← Go.attempt (reliablySendMsgs send msgs)
    match res with
    | .error errSendMsg =>
      if contains errSendMsg "message index: " then
        match failedMessageIndex errSendMsg with
        | (_, false) => Go.fail errSendMsg
        | (failedIndex, true) =>
          resendLoop retries (removeMsgAtIndex msgs failedIndex)
            (some (joinErrors err errSendMsg))
      else Go.fail errSendMsg
    | .ok none => pure ⟨"", []⟩
    | .ok (some res) => pure ⟨res.txHash, res.events⟩

def reliablySendMsgsResendingOnMsgErr (maxRetiresBatchRemovingMsgs : UInt64) (msgs : List μ) :
    Go (Net μ τ) TxResponse :=
  resendLoop dup send (batchRetries msgs maxRetiresBatchRemovingMsgs) msgs none

end

/-- The text that the comment on `FailedMessageIndex` quotes. -/
def Sample.duplicated : SdkError :=
  ⟨"the covenant signature is already submitted", by decide⟩

example : failedMessageIndex "failed op: message index: 4; message index: 9" = (4, true) := by
  decide
example : failedMessageIndex "message index: abc" = (0, false) := by decide

end CovenantEmulator
