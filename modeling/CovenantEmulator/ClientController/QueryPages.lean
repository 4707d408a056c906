import CovenantEmulator.Golang.Relate
import CovenantEmulator.Paging.Verdicts
import CovenantEmulator.ClientController.QueryTotal

/-! The paged query against any server: what it asks for, what it judges, and what it returns. -/
namespace CovenantEmulator

open Golang Paging

/-- A call of the server or of the filter, with what it ended in. -/
inductive QueryEvent where
  | asked (req : PageRequest) (answer : Outcome BTCDelegationsPage)
  | judged (del : Delegation) (verdict : Outcome Bool)

def QueryEvent.answer : QueryEvent → Option (Outcome BTCDelegationsPage)
  | .asked _ answer => some answer
  | .judged _ _ => none

def QueryEvent.verdict : QueryEvent → Option (Delegation × Outcome Bool)
  | .asked _ _ => none
  | .judged del verdict => some (del, verdict)

section
variable {τ α : Type}

/-- The call, entered in the log. -/
def logging (event : Outcome α → QueryEvent) (m : Go τ α) : Go (τ × List QueryEvent) α :=
  fun t => ((m t.1).1, (m t.1).2, t.2 ++ [event (m t.1).1])

def loggedQuery (query : PageRequest → Go τ BTCDelegationsPage) (req : PageRequest) :
    Go (τ × List QueryEvent) BTCDelegationsPage :=
  logging (.asked req) (query req)

def loggedFilter (filter : Option (FilterFn τ)) : Option (FilterFn (τ × List QueryEvent)) :=
  filter.map fun f del => logging (.judged del) (f del)

/-- The evaluations of the filter, if there is one, on these elements. -/
def evaluations (filtered : Bool) (ds : List Delegation) (vs : List Bool) : List QueryEvent :=
  if filtered then List.zipWith (fun d v => .judged d (.ok v)) ds vs else []

end

/-- What one pass over the page `rs` looked at: `ds`, with the verdicts `vs`. -/
structure Scanned (lib : BabylonLib) (limit : ℕ) (filtered : Bool)
    (rs : List BTCDelegationResponse) (dels : List Delegation) (scan : Scan)
    (ds : List Delegation) (vs : List Bool) : Prop where
  converted : (rs.take vs.length).mapM (delegationRespToDelegation lib) = .ok ds
  within : vs.length ≤ rs.length
  unfiltered : filtered = false → ∀ v ∈ vs, v = true
  collected : scan.dels = dels ++ accepted ds vs
  ends : (∃ dels', scan = .more dels' ∧ dels'.length < limit ∧ vs.length = rs.length) ∨
    ∃ dels', scan = .full dels' ∧ dels'.length = limit ∧ vs.getLast? = some true

/-- The elements of the pages, in order. -/
def elements (pages : List BTCDelegationsPage) : List BTCDelegationResponse :=
  pages.flatMap (·.btcDelegations)

/-- The pages a query asked for, the elements of theirs it looked at, and what it collected. -/
structure Looked (lib : BabylonLib) (filtered : Bool) (log : List QueryEvent)
    (pages : List BTCDelegationsPage) (ds : List Delegation) (vs : List Bool)
    (dels : List Delegation) : Prop where
  /-- The pages are all that was asked for, in order. -/
  requests : log.filterMap QueryEvent.answer = pages.map .ok
  /-- The elements looked at are the first of these pages. -/
  converted : ((elements pages).take vs.length).mapM (delegationRespToDelegation lib) = .ok ds
  within : vs.length ≤ (elements pages).length
  /-- The filter ran once on each of them, in order, and on nothing else. -/
  judged : log.filterMap QueryEvent.verdict = if filtered then ds.zip (vs.map .ok) else []
  unfiltered : filtered = false → ∀ v ∈ vs, v = true
  result : dels = accepted ds vs

/-- Where the query stops: at the limit, or at the first page of another length than `g`. -/
structure PagedThrough (lib : BabylonLib) (limit g : ℕ) (filtered : Bool) (log : List QueryEvent)
    (pages : List BTCDelegationsPage) (ds : List Delegation) (vs : List Bool)
    (dels : List Delegation) : Prop extends Looked lib filtered log pages ds vs dels where
  bounded : dels.length ≤ limit
  /-- Below the limit every element was looked at. -/
  all_below : dels.length < limit → vs.length = (elements pages).length
  /-- At the limit no element was looked at after the last accepted one. -/
  last_at : dels.length = limit → vs.getLast? = some true
  stops : dels.length = limit ∨ ∃ last, pages.getLast? = some last ∧ last.btcDelegations.length ≠ g
  least : ∀ k, 0 < k → k < pages.length →
    (vs.take (elements (pages.take k)).length).count true < limit ∧
      ∀ page, pages[k - 1]? = some page → page.btcDelegations.length = g

/-- What holds whenever another page is to be asked for. -/
structure Progress (lib : BabylonLib) (limit g : ℕ) (filtered : Bool) (log : List QueryEvent)
    (pages : List BTCDelegationsPage) (ds : List Delegation) (vs : List Bool)
    (dels : List Delegation) : Prop extends Looked lib filtered log pages ds vs dels where
  all : vs.length = (elements pages).length
  below : dels.length < limit
  full : ∀ page ∈ pages, page.btcDelegations.length = g

section
variable {τ α : Type} {lib : BabylonLib} {limit : UInt64} {filter : Option (FilterFn τ)}
  {s s' : τ} {log log' : List QueryEvent}

theorem logging_ok {event : Outcome α → QueryEvent} {m : Go τ α} {a : α}
    (h : logging event m (s, log) = (.ok a, s', log')) :
    m s = (.ok a, s') ∧ log' = log ++ [event (.ok a)] := by
  have hout : (m s).1 = .ok a := congrArg Prod.fst h
  have hlog : log ++ [event (m s).1] = log' := congrArg (fun r => r.2.2) h
  exact ⟨Prod.ext hout (congrArg (fun r => r.2.1) h), by rw [← hlog, hout]⟩

theorem runFilter_logged {d : Delegation} {v : Bool}
    (h : runFilter (loggedFilter filter) d (s, log) = (.ok v, s', log')) :
    log' = log ++ evaluations filter.isSome [d] [v] ∧ (filter.isSome = false → v = true) := by
  cases filter with
  | none =>
    cases h
    exact ⟨by simp [evaluations], fun _ => rfl⟩
  | some f =>
    obtain ⟨-, rfl⟩ := logging_ok h
    exact ⟨rfl, fun hf => by cases hf⟩

theorem evaluations_cons (filtered : Bool) (d : Delegation) (v : Bool) (ds : List Delegation)
    (vs : List Bool) : evaluations filtered (d :: ds) (v :: vs) =
      evaluations filtered [d] [v] ++ evaluations filtered ds vs := by
  cases filtered <;> rfl

/-- A pass that goes on from `del` extends what it looked at by one element. -/
theorem Scanned.cons {limit : ℕ} {filtered : Bool} {r : BTCDelegationResponse}
    {rs : List BTCDelegationResponse} {d : Delegation} {v : Bool} {dels dels₁ ds : List Delegation}
    {vs : List Bool} {scan : Scan} (hd : delegationRespToDelegation lib r = .ok d)
    (hv : filtered = false → v = true) (hdels : dels₁ = dels ++ accepted [d] [v])
    (h : Scanned lib limit filtered rs dels₁ scan ds vs) :
    Scanned lib limit filtered (r :: rs) dels scan (d :: ds) (v :: vs) where
  converted := by
    rw [List.length_cons, List.take_succ_cons, List.mapM_cons, hd, h.converted]
    rfl
  within := Nat.succ_le_succ h.within
  unfiltered := by
    intro hf w hw
    rcases List.mem_cons.mp hw with rfl | hw
    · exact hv hf
    · exact h.unfiltered hf w hw
  collected := by
    have happ : accepted ([d] ++ ds) ([v] ++ vs) = accepted [d] [v] ++ accepted ds vs :=
      accepted_append rfl
    rw [h.collected, hdels, List.append_assoc, ← happ]
    rfl
  ends := by
    rcases h.ends with ⟨dels', hscan, hlt, hlen⟩ | ⟨dels', hscan, hlen, hlast⟩
    · exact Or.inl ⟨dels', hscan, hlt, by rw [List.length_cons, List.length_cons, hlen]⟩
    · refine Or.inr ⟨dels', hscan, hlen, ?_⟩
      cases vs with
      | nil => cases hlast
      | cons w vs => rw [List.getLast?_cons_cons, hlast]

theorem scanPage_scanned {rs : List BTCDelegationResponse} {dels : List Delegation} {scan : Scan}
    (hlt : dels.length < limit.toNat)
    (h : scanPage lib limit (loggedFilter filter) rs dels (s, log) = (.ok scan, s', log')) :
    ∃ ds vs, Scanned lib limit.toNat filter.isSome rs dels scan ds vs ∧
      log' = log ++ evaluations filter.isSome ds vs := by
  induction rs generalizing dels s log with
  | nil =>
    cases h
    refine ⟨[], [], ⟨rfl, le_rfl, by simp, by simp [Scan.dels],
      Or.inl ⟨dels, rfl, hlt, rfl⟩⟩, ?_⟩
    simp [evaluations]
  | cons r rs ih =>
    rw [scanPage] at h
    obtain ⟨d, t, hlift, h⟩ := Go.bind_eq_ok.mp h
    obtain ⟨hd, rfl⟩ := Go.lift_eq_ok.mp hlift
    obtain ⟨v, ⟨s₁, log₁⟩, hfilter, h⟩ := Go.bind_eq_ok.mp h
    obtain ⟨rfl, hv⟩ := runFilter_logged hfilter
    cases v with
    | false =>
      obtain ⟨ds, vs, hscan, rfl⟩ := ih hlt h
      refine ⟨d :: ds, false :: vs, hscan.cons hd hv (by simp), ?_⟩
      rw [evaluations_cons filter.isSome d false ds vs, List.append_assoc]
    | true =>
      rw [if_neg (by simp)] at h
      split at h
      · rename_i hfull
        cases h
        refine ⟨[d], [true], ⟨?_, by simp, by simp, rfl, Or.inr ⟨_, rfl, hfull, rfl⟩⟩, rfl⟩
        simp [hd]
      · rename_i hmore
        have hlen : (dels ++ [d]).length = dels.length + 1 := by simp
        obtain ⟨ds, vs, hscan, rfl⟩ := ih (by omega) h
        refine ⟨d :: ds, true :: vs, hscan.cons hd hv (by simp), ?_⟩
        rw [evaluations_cons filter.isSome d true ds vs, List.append_assoc]

theorem filterMap_answer_evaluations (filtered : Bool) (ds : List Delegation) (vs : List Bool) :
    (evaluations filtered ds vs).filterMap QueryEvent.answer = [] := by
  unfold evaluations
  split
  · refine List.filterMap_eq_nil_iff.mpr fun e he => ?_
    obtain ⟨i, hi⟩ := List.getElem?_of_mem he
    obtain ⟨d, v, -, -, rfl⟩ := List.getElem?_zipWith_eq_some.mp hi
    rfl
  · rfl

theorem filterMap_verdict_evaluations (filtered : Bool) (ds : List Delegation) (vs : List Bool) :
    (evaluations filtered ds vs).filterMap QueryEvent.verdict =
      if filtered then ds.zip (vs.map .ok) else [] := by
  unfold evaluations
  split
  · induction ds generalizing vs with
    | nil => rfl
    | cons d ds ih =>
      cases vs with
      | nil => rfl
      | cons v vs => simp [QueryEvent.verdict, ih]
  · rfl

end

section
variable {lib : BabylonLib} {limit g : ℕ} {filtered : Bool} {log : List QueryEvent}
  {pages : List BTCDelegationsPage} {page : BTCDelegationsPage} {req : PageRequest}
  {ds ds' : List Delegation} {vs vs' : List Bool} {dels : List Delegation} {scan : Scan}

theorem Looked.length_eq (h : Looked lib filtered log pages ds vs dels) :
    ds.length = vs.length := by
  have hlen := (Outcome.mapM_eq_ok.mp h.converted).length_eq
  rw [← hlen, List.length_take, min_eq_left h.within]

theorem elements_append (pages : List BTCDelegationsPage) (page : BTCDelegationsPage) :
    elements (pages ++ [page]) = elements pages ++ page.btcDelegations := by
  simp [elements]

/-- One more page, and the pass over it. -/
theorem Looked.next (h : Looked lib filtered log pages ds vs dels)
    (hall : vs.length = (elements pages).length)
    (hscan : Scanned lib limit filtered page.btcDelegations dels scan ds' vs') :
    Looked lib filtered (log ++ [.asked req (.ok page)] ++ evaluations filtered ds' vs')
      (pages ++ [page]) (ds ++ ds') (vs ++ vs') scan.dels where
  requests := by
    rw [List.filterMap_append, List.filterMap_append, h.requests, filterMap_answer_evaluations]
    simp [QueryEvent.answer]
  converted := by
    have hold := h.converted
    rw [hall, List.take_length] at hold
    rw [elements_append, List.length_append, hall, List.take_length_add_append, List.mapM_append,
      hold, hscan.converted]
    rfl
  within := by
    have := hscan.within
    rw [elements_append, List.length_append, List.length_append]
    omega
  judged := by
    rw [List.filterMap_append, List.filterMap_append, h.judged, filterMap_verdict_evaluations]
    cases filtered with
    | false => rfl
    | true =>
      have hlen : ds.length = (vs.map Outcome.ok).length := by rw [List.length_map, h.length_eq]
      simp [QueryEvent.verdict, List.zip_append hlen]
  unfiltered := by
    intro hf v hv
    rcases List.mem_append.mp hv with hv | hv
    · exact h.unfiltered hf v hv
    · exact hscan.unfiltered hf v hv
  result := by
    rw [hscan.collected, h.result, accepted_append h.length_eq]

/-- A page of the expected length that left the query below its limit. -/
theorem Progress.next (h : Progress lib limit g filtered log pages ds vs dels)
    {dels' : List Delegation}
    (hscan : Scanned lib limit filtered page.btcDelegations dels (.more dels') ds' vs')
    (hlen : page.btcDelegations.length = g) :
    Progress lib limit g filtered (log ++ [.asked req (.ok page)] ++ evaluations filtered ds' vs')
      (pages ++ [page]) (ds ++ ds') (vs ++ vs') dels' := by
  obtain ⟨_, heq, hlt, hvs⟩ | ⟨_, heq, -⟩ := hscan.ends
  · cases heq
    refine { h.toLooked.next h.all hscan with all := ?_, below := hlt, full := ?_ }
    · rw [elements_append, List.length_append, List.length_append, h.all, hvs]
    · intro page' hmem
      rcases List.mem_append.mp hmem with hmem | hmem
      · exact h.full page' hmem
      · rw [List.mem_singleton.mp hmem, hlen]
  · cases heq

/-- No earlier page could have been the last. -/
theorem Progress.least (h : Progress lib limit g filtered log pages ds vs dels) {k : ℕ}
    (hpos : 0 < k) (hk : k < (pages ++ [page]).length) :
    ((vs ++ vs').take (elements ((pages ++ [page]).take k)).length).count true < limit ∧
      ∀ page', (pages ++ [page])[k - 1]? = some page' → page'.btcDelegations.length = g := by
  have hle : k ≤ pages.length := by
    rw [List.length_append, List.length_singleton] at hk
    omega
  constructor
  · have hshort : (elements (pages.take k)).length ≤ vs.length := by
      have hsplit : elements pages = elements (pages.take k) ++ elements (pages.drop k) := by
        rw [elements, elements, elements, ← List.flatMap_append, List.take_append_drop]
      rw [h.all, hsplit, List.length_append]
      omega
    have hcount : vs.count true < limit := by
      rw [← length_accepted h.length_eq, ← h.result]
      exact h.below
    rw [List.take_append_of_le_length hle, List.take_append_of_le_length hshort]
    exact Nat.lt_of_le_of_lt ((List.take_sublist _ _).count_le true) hcount
  · intro page' hpage
    rw [List.getElem?_append_left (by omega)] at hpage
    exact h.full page' (List.mem_of_getElem? hpage)

/-- The pass over the last page. -/
theorem Progress.stop (h : Progress lib limit g filtered log pages ds vs dels)
    (hscan : Scanned lib limit filtered page.btcDelegations dels scan ds' vs')
    (hstop : (∃ dels', scan = .full dels') ∨ page.btcDelegations.length ≠ g) :
    PagedThrough lib limit g filtered
      (log ++ [.asked req (.ok page)] ++ evaluations filtered ds' vs') (pages ++ [page])
      (ds ++ ds') (vs ++ vs') scan.dels := by
  have hlast : (pages ++ [page]).getLast? = some page := List.getLast?_concat
  obtain ⟨dels', rfl, hlt, hvs⟩ | ⟨dels', rfl, hlen, hend⟩ := hscan.ends
  · have hne : page.btcDelegations.length ≠ g := by
      rcases hstop with ⟨_, heq⟩ | hne
      · cases heq
      · exact hne
    refine { h.toLooked.next h.all hscan with
      bounded := Nat.le_of_lt hlt
      all_below := fun _ => ?_
      last_at := fun heq => absurd heq (Nat.ne_of_lt hlt)
      stops := Or.inr ⟨page, hlast, hne⟩
      least := fun _ hpos hk => h.least hpos hk }
    rw [elements_append, List.length_append, List.length_append, h.all, hvs]
  · exact { h.toLooked.next h.all hscan with
      bounded := Nat.le_of_eq hlen
      all_below := fun hlt => absurd hlen (Nat.ne_of_lt hlt)
      last_at := fun _ => by rw [List.getLast?_append, hend]; rfl
      stops := Or.inl hlen
      least := fun _ hpos hk => h.least hpos hk }

end

section
variable {τ : Type} {lib : BabylonLib} {filter : Option (FilterFn τ)} {pgLimit limit : UInt64}
  {query : PageRequest → Go τ BTCDelegationsPage} {s s' : τ} {log log' : List QueryEvent}

/-- From any point of the query on, by induction on the pages left. -/
theorem queryLoop_pagedThrough {fuel : ℕ} {key : Bytes} {pages : List BTCDelegationsPage}
    {ds dels dels' : List Delegation} {vs : List Bool}
    (hprog : Progress lib limit.toNat pgLimit.toNat filter.isSome log pages ds vs dels)
    (h : queryLoop lib (loggedQuery query) pgLimit limit (loggedFilter filter) fuel key dels
      (s, log) = (.ok dels', s', log')) :
    ∃ pages ds vs, PagedThrough lib limit.toNat pgLimit.toNat filter.isSome log' pages ds vs
      dels' := by
  induction fuel generalizing key pages ds dels vs s log with
  | zero => cases h
  | succ fuel ih =>
    rw [queryLoop, if_pos hprog.below] at h
    obtain ⟨page, ⟨s₁, log₁⟩, hquery, h⟩ := Go.bind_eq_ok.mp h
    obtain ⟨-, rfl⟩ := logging_ok (Go.wrap_eq_ok.mp hquery)
    obtain ⟨scan, ⟨s₂, log₂⟩, hscan, h⟩ := Go.bind_eq_ok.mp h
    obtain ⟨ds', vs', hscanned, rfl⟩ := scanPage_scanned hprog.below hscan
    cases scan with
    | full dels₁ =>
      cases h
      exact ⟨_, _, _, hprog.stop hscanned (Or.inl ⟨_, rfl⟩)⟩
    | more dels₁ =>
      dsimp only at h
      split at h
      · rename_i hne
        cases h
        exact ⟨_, _, _, hprog.stop hscanned (Or.inr hne)⟩
      · rename_i heq
        obtain ⟨pagination, t, hderef, h⟩ := Go.bind_eq_ok.mp h
        obtain ⟨-, rfl⟩ := Go.lift_eq_ok.mp hderef
        exact ih (hprog.next hscanned (not_not.mp heq)) h

theorem progress_start (hlimit : 0 < limit.toNat) :
    Progress lib limit.toNat pgLimit.toNat filter.isSome [] [] [] [] [] where
  requests := rfl
  converted := rfl
  within := le_rfl
  judged := by cases filter <;> rfl
  unfiltered := by simp
  result := rfl
  all := rfl
  below := hlimit
  full := by simp

/-- The two runs differ in the log alone. -/
def SameBut (s : τ) (t : τ × List QueryEvent) : Prop := t.1 = s

theorem logging_relates {α : Type} (event : Outcome α → QueryEvent) (m : Go τ α)
    {t : τ × List QueryEvent} (ht : SameBut s t) :
    Relates m (logging event m) s t (fun a s' b t' => a = b ∧ SameBut s' t') SameBut := by
  unfold Relates logging
  rw [ht]
  rcases m s with ⟨a | e | p | _, s'⟩
  · exact .ok ⟨rfl, rfl⟩
  · exact .error rfl
  · exact .panic rfl
  · exact .diverged rfl

theorem runFilter_relates (d : Delegation) {t : τ × List QueryEvent} (ht : SameBut s t) :
    Relates (runFilter filter d) (runFilter (loggedFilter filter) d) s t
      (fun a s' b t' => a = b ∧ SameBut s' t') SameBut := by
  cases filter with
  | none => exact Relates.pure ⟨rfl, ht⟩
  | some f => exact logging_relates _ _ ht

theorem scanPage_logged {rs : List BTCDelegationResponse} {dels : List Delegation}
    {t : τ × List QueryEvent} (ht : SameBut s t) :
    Relates (scanPage lib limit filter rs dels) (scanPage lib limit (loggedFilter filter) rs dels)
      s t (fun a s' b t' => a = b ∧ SameBut s' t') SameBut := by
  induction rs generalizing dels s t with
  | nil => exact Relates.pure ⟨rfl, ht⟩
  | cons r rs ih =>
    rw [scanPage, scanPage]
    refine Relates.bind (Q := fun d s' d' t' => d = d' ∧ SameBut s' t')
      (Relates.lift (fun _ _ => ⟨rfl, ht⟩) ht) ?_
    rintro d s₁ _ t₁ ⟨rfl, ht₁⟩
    refine Relates.bind (runFilter_relates d ht₁) ?_
    rintro accept s₂ _ t₂ ⟨rfl, ht₂⟩
    split
    · exact ih ht₂
    split
    · exact Relates.pure ⟨rfl, ht₂⟩
    · exact ih ht₂

/-- The log changes nothing of the query. -/
theorem queryLoop_logged {fuel : ℕ} {key : Bytes} {dels : List Delegation}
    {t : τ × List QueryEvent} (ht : SameBut s t) :
    Relates (queryLoop lib query pgLimit limit filter fuel key dels)
      (queryLoop lib (loggedQuery query) pgLimit limit (loggedFilter filter) fuel key dels)
      s t (fun a s' b t' => a = b ∧ SameBut s' t') SameBut := by
  induction fuel generalizing key dels s t with
  | zero => exact .diverged ht
  | succ fuel ih =>
    rw [queryLoop, queryLoop]
    split
    · refine Relates.bind (Relates.wrap (logging_relates _ _ ht)) ?_
      rintro page s₁ _ t₁ ⟨rfl, ht₁⟩
      refine Relates.bind (scanPage_logged ht₁) ?_
      rintro scan s₂ _ t₂ ⟨rfl, ht₂⟩
      cases scan with
      | full dels => exact Relates.pure ⟨rfl, ht₂⟩
      | more dels =>
        dsimp only
        split
        · exact Relates.pure ⟨rfl, ht₂⟩
        · refine Relates.bind (Q := fun p s' p' t' => p = p' ∧ SameBut s' t')
            (Relates.lift (fun _ _ => ⟨rfl, ht₂⟩) ht₂) ?_
          rintro pagination s₃ _ t₃ ⟨rfl, ht₃⟩
          exact ih ht₃
    · exact Relates.pure ⟨rfl, ht⟩

/-- Whatever is said of the elements that were not looked at, the query returns the first
accepted ones up to the limit. -/
theorem PagedThrough.first_accepted {limit g : ℕ} {filtered : Bool}
    {pages : List BTCDelegationsPage} {ds ds' dels : List Delegation} {vs acc : List Bool}
    (h : PagedThrough lib limit g filtered log pages ds vs dels)
    (hconv : (elements pages).mapM (delegationRespToDelegation lib) = .ok ds')
    (hvs : vs <+: acc) :
    dels = (accepted ds' acc).take (min limit (accepted ds' acc).length) := by
  obtain ⟨ws, rfl⟩ := hvs
  rw [← List.take_append_drop vs.length (elements pages), List.mapM_append, h.converted,
    Outcome.bind_ok] at hconv
  obtain ⟨rest, hrest, heq⟩ := Outcome.bind_eq_ok.mp hconv
  obtain rfl : ds ++ rest = ds' := Outcome.ok.inj heq
  rw [take_accepted_append h.length_eq (h.result ▸ h.bounded), h.result]
  intro hlt
  have hall := h.all_below (h.result ▸ hlt)
  rw [hall, List.drop_length] at hrest
  exact (Outcome.ok.inj hrest).symm

/-- The paged query against any server, with any filter. -/
theorem queryDelegationsWithStatus_pages (lib : BabylonLib) (cap limit : UInt64)
    (server : BTCDelegationStatus → PageRequest → Go τ BTCDelegationsPage)
    (filter : Option (FilterFn τ)) (fuel : ℕ) (status : BTCDelegationStatus) (s s' : τ)
    (dels : List Delegation) (hlimit : 1 ≤ limit.toNat)
    (h : queryDelegationsWithStatus lib cap server fuel status limit filter s = (.ok dels, s')) :
    ∃ log pages ds vs,
      queryDelegationsWithStatus lib cap (fun status => loggedQuery (server status)) fuel status
        limit (loggedFilter filter) (s, []) = (.ok dels, s', log) ∧
      PagedThrough lib limit.toNat (min cap.toNat limit.toNat) filter.isSome log pages ds vs dels ∧
      ∀ ds' acc, (elements pages).mapM (delegationRespToDelegation lib) = .ok ds' → vs <+: acc →
        dels = (accepted ds' acc).take (min limit.toNat (accepted ds' acc).length) := by
  obtain ⟨haddr, hloop⟩ := queryDelegationsWithStatus_eq_ok h
  rw [queryDelegationsWithStatus_of_addressable haddr]
  have hrel : Relates (queryLoop lib (server status) (minUint64 cap limit) limit filter fuel [] [])
      (queryLoop lib (loggedQuery (server status)) (minUint64 cap limit) limit
        (loggedFilter filter) fuel [] []) s (s, [])
      (fun a s' b t' => a = b ∧ SameBut s' t') SameBut :=
    queryLoop_logged rfl
  unfold Relates at hrel
  rw [hloop] at hrel
  generalize hrun : queryLoop lib (loggedQuery (server status)) (minUint64 cap limit) limit
    (loggedFilter filter) fuel [] [] (s, []) = run at hrel ⊢
  cases hrel with
  | @ok a _ b t hsame =>
    obtain ⟨rfl, rfl⟩ := hsame
    obtain ⟨pages, ds, vs, hpaged⟩ := queryLoop_pagedThrough (progress_start hlimit) hrun
    rw [toNat_minUint64] at hpaged
    exact ⟨t.2, pages, ds, vs, rfl, hpaged, fun ds' acc hconv hvs =>
      hpaged.first_accepted hconv hvs⟩

end

namespace Sample

/-- A full page of three with one rejected, and a second page of which only the first is looked
at: it is the third accepted one. -/
theorem five_pages : ∃ log pages ds vs,
    queryDelegationsWithStatus lib 3 (fun status => loggedQuery (honestPager fiveEach status)) 6
      .pending 3 (loggedFilter (pureFilter (some notTwo))) ((), []) =
        (.ok [amountDelegation 1, amountDelegation 3, amountDelegation 4], (), log) ∧
    PagedThrough lib 3 3 true log pages ds vs
      [amountDelegation 1, amountDelegation 3, amountDelegation 4] := by
  have haddr : Addressable pointerSize (3 : UInt64).toNat := by decide
  have hrun : queryDelegationsWithStatus lib 3 (honestPager fiveEach) 6 .pending 3
      (pureFilter (some notTwo)) () =
        (.ok [amountDelegation 1, amountDelegation 3, amountDelegation 4], ()) := by
    rw [queryDelegationsWithStatus_of_addressable haddr]
    exact queryLoop_total (n := 0) converts_fiveEach (by decide) (.inl (by decide))
      (fiveEach .pending).startingAt_nil (Nat.dvd_zero _) (Nat.zero_le _) (by decide) (by decide)
  obtain ⟨log, pages, ds, vs, hlogged, hpaged, -⟩ := queryDelegationsWithStatus_pages lib 3 3
    (honestPager fiveEach) (pureFilter (some notTwo)) 6 .pending () ()
    [amountDelegation 1, amountDelegation 3, amountDelegation 4] (by decide) hrun
  exact ⟨log, pages, ds, vs, hlogged, hpaged⟩

end Sample

end CovenantEmulator
