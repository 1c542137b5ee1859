import WzonePortal.CollectionWorld
import WzonePortal.VmUpsertHistory

/-! The connections page and the server, one message at a time: the timer, the lists that the
page asks for, the start requests of all clients and the runs. Which runs are over, which ends
the page has shown and which a later tick has confirmed is recorded beside the state. -/
namespace WzonePortal

abbrev ConnectionList := Table ConnectionRow.connectionId

/-- Where a run is: between the entry into the set of running collections and its first commit,
under way, committed but still in the set, or not there. -/
inductive RunPhase
  | idle | starting | running | committed
  deriving DecidableEq, Repr

/-- A tick of the timer that waits for its list: the times it has seen before, and the runs that
were over when it fired. -/
structure Tick where
  before : UUID → Option (Option Timestamp)
  after : Finset UUID

/-- A request for the list, with its answer once there is one. -/
structure ListRequest where
  tick : Option Tick
  answer : Option (Option ConnectionList)

structure StartRequest where
  connectionId : UUID
  own : Bool
  entered : Bool
  answer : Option Bool

structure PageState where
  connections : ConnectionList
  collecting : Finset UUID
  polling : Bool
  lists : List ListRequest
  starts : List StartRequest
  db : Database
  phase : UUID → RunPhase
  ended : Finset UUID
  shown : Finset UUID
  confirmed : Finset UUID

inductive PageEvent
  | reload
  | tick
  | answerList (n : ℕ) (ok : Bool)
  | deliver (n : ℕ)
  | post (connectionId : UUID) (own : Bool)
  | enter (n : ℕ)
  | attempt (n : ℕ) (now : Timestamp) (ok : Bool)
  | reply (n : ℕ)
  | succeed (connectionId : UUID) (now at_ : Timestamp)
  | fail (connectionId : UUID) (now : Timestamp) (error : {e : String // e ≠ ""})
      (status : ConnectionStatus)
  | release (connectionId : UUID)
  | delete (connectionId : UUID)
  | create (row : ConnectionRow)

/-- The truth of `last_error` in the browser. -/
def ConnectionRow.hasError (row : ConnectionRow) : Bool := row.lastError.any (· ≠ "")

/-- `last_success_at` by connection. -/
def ConnectionList.times (connections : ConnectionList) (connectionId : UUID) :
    Option (Option Timestamp) :=
  (connections.find? connectionId).map (·.lastSuccessAt)

namespace Tick

def isDone (t : Tick) (c : ConnectionRow) : Bool :=
  t.before c.connectionId ≠ some c.lastSuccessAt || c.hasError

def settle (t : Tick) : List ConnectionRow → Finset UUID → Finset UUID
  | [], collecting => collecting
  | c::cs, collecting =>
    settle t cs (if c.connectionId ∈ collecting ∧ t.isDone c then collecting.erase c.connectionId
      else collecting)

end Tick

/-- The list has the time that a successful run has left in the database. -/
def showsSuccess (db : Database) (connections : ConnectionList) (connectionId : UUID) : Bool :=
  (db.connections.find? connectionId).any fun row =>
    !row.hasError && connections.times connectionId = some row.lastSuccessAt

def ListRequest.restarted (connectionId : UUID) (r : ListRequest) : ListRequest :=
  { r with tick := r.tick.map fun t => { t with after := t.after.erase connectionId } }

namespace PageState

def reload (s : PageState) : PageState := { s with lists := s.lists ++ [⟨none,none⟩] }

def fire (s : PageState) : PageState :=
  if s.polling then
    { s with lists := s.lists ++ [⟨some ⟨s.connections.times,s.ended⟩,none⟩] }
  else s

/-- The server answers a request for the list, or the request fails. -/
def answerList (n : ℕ) (ok : Bool) (s : PageState) : PageState :=
  { s with lists := s.lists.modify n fun r =>
    if r.answer.isNone then { r with answer := some (if ok then some s.db.connections else none) }
    else r }

/-- The assignment in `reload`. -/
def show_ (connections : ConnectionList) (s : PageState) : PageState :=
  { s with
    connections := connections
    shown := s.shown ∪ s.ended.filter fun c => showsSuccess s.db connections c }

/-- The rest of a tick after its `reload`. -/
def finishTick (t : Tick) (s : PageState) : PageState :=
  let collecting := t.settle s.connections.rows s.collecting
  { s with collecting := collecting, polling := s.polling && collecting ≠ ∅ }

def receive (r : ListRequest) (s : PageState) : PageState :=
  match r.answer with
  | none => s
  | some answer =>
    let s := match answer with
      | some connections => s.show_ connections
      | none => s
    match r.tick with
    | none => s
    | some t =>
      let s := s.finishTick t
      if answer.isSome then { s with confirmed := s.confirmed ∪ t.after } else s

def deliver (n : ℕ) (s : PageState) : PageState :=
  match s.lists[n]? with
  | none => s
  | some r => if r.answer.isNone then s else ({ s with lists := s.lists.eraseIdx n }).receive r

def post (connectionId : UUID) (own : Bool) (s : PageState) : PageState :=
  { s with starts := s.starts ++ [⟨connectionId,own,false,none⟩] }

/-- The check for a run under way, and the entry into the set of running collections. -/
def enter (n : ℕ) (s : PageState) : PageState :=
  match s.starts[n]? with
  | none => s
  | some r =>
    if r.entered || r.answer.isSome then s
    else if s.phase r.connectionId ≠ .idle then
      { s with starts := s.starts.set n { r with answer := some true } }
    else { s with
      starts := s.starts.set n { r with entered := true }
      phase := Function.update s.phase r.connectionId .starting }

/-- The transaction of the request that has entered the run. -/
def attempt (n : ℕ) (now : Timestamp) (ok : Bool) (s : PageState) : PageState :=
  match s.starts[n]? with
  | none => s
  | some r =>
    if !r.entered || r.answer.isSome then s
    else if ok && (s.db.connections.find? r.connectionId).isSome then
      { s with
        starts := s.starts.set n { r with answer := some true }
        db := ConnectionRepository.markAttempt now r.connectionId s.db
        phase := Function.update s.phase r.connectionId .running
        lists := s.lists.map (ListRequest.restarted r.connectionId)
        ended := s.ended.erase r.connectionId
        confirmed := s.confirmed.erase r.connectionId }
    else { s with
      starts := s.starts.set n { r with answer := some false }
      phase := Function.update s.phase r.connectionId .idle }

/-- The page learns that its collection has been started, or is under way already. -/
def reply (n : ℕ) (s : PageState) : PageState :=
  match s.starts[n]? with
  | none => s
  | some r =>
    if r.answer.isNone then s
    else if r.own && r.answer = some true then
      { s with
        starts := s.starts.eraseIdx n
        collecting := insert r.connectionId s.collecting
        polling := true }
    else { s with starts := s.starts.eraseIdx n }

/-- The commit at the end of a run. -/
def finish (connectionId : UUID) (mark : Database → Database) (s : PageState) : PageState :=
  if s.phase connectionId = .running then
    { s with
      db := mark s.db
      phase := Function.update s.phase connectionId .committed
      ended := insert connectionId s.ended
      shown := s.shown.erase connectionId }
  else s

/-- A run leaves the set of running collections, whether it has committed or not. -/
def release (connectionId : UUID) (s : PageState) : PageState :=
  if s.phase connectionId = .running ∨ s.phase connectionId = .committed then
    { s with phase := Function.update s.phase connectionId .idle }
  else s

def delete (connectionId : UUID) (s : PageState) : PageState :=
  if (s.db.connections.find? connectionId).isSome then
    { s with
      db := { s.db with
        connections := s.db.connections.deleteWhere fun r => r.connectionId = connectionId }
      ended := insert connectionId s.ended }
  else s

def create (row : ConnectionRow) (s : PageState) : PageState :=
  if row.connectionId ∈ s.ended then s
  else match s.db.connections.insert row with
    | none => s
    | some connections => { s with db := { s.db with connections := connections } }

def step (s : PageState) : PageEvent → PageState
  | .reload => s.reload
  | .tick => s.fire
  | .answerList n ok => s.answerList n ok
  | .deliver n => s.deliver n
  | .post connectionId own => s.post connectionId own
  | .enter n => s.enter n
  | .attempt n now ok => s.attempt n now ok
  | .reply n => s.reply n
  | .succeed c now at_ => s.finish c (ConnectionRepository.markSuccess now c at_)
  | .fail c now error status => s.finish c (ConnectionRepository.markFailure now c error.val status)
  | .release connectionId => s.release connectionId
  | .delete connectionId => s.delete connectionId
  | .create row => s.create row

def run (s : PageState) (events : List PageEvent) : PageState := events.foldl step s

/-- The page right after it was opened. -/
structure Opened (s : PageState) : Prop where
  connections : s.connections = Table.empty
  collecting : s.collecting = ∅
  lists : s.lists = []
  shown : s.shown = ∅
  confirmed : s.confirmed = ∅
  running : ∀ c, s.phase c = .running → (c ∈ s.ended ↔ s.db.connections.find? c = none)

/-- The page holds this time neither in its list nor in a tick that waits for its own. -/
def NewTime (s : PageState) (c : UUID) (at_ : Timestamp) : Prop :=
  s.connections.times c ≠ some (some at_) ∧
    ∀ r ∈ s.lists, ∀ t ∈ r.tick, t.before c ≠ some (some at_)

/-- The end of a run can still be seen by a tick to come. -/
def StillToSee (s : PageState) (c : UUID) : Prop :=
  ∃ row, s.db.connections.find? c = some row ∧ (row.hasError = true ∨ c ∉ s.shown)

/-- The steps after which no tick misses the end of a run. -/
def Allowed (s : PageState) : PageEvent → Prop
  | .deliver n => ∀ r connections, s.lists[n]? = some r → r.tick = none →
      r.answer = some (some connections) →
      ∀ c ∈ s.collecting, c ∈ s.ended → showsSuccess s.db connections c = false
  | .reply n => ∀ r, s.starts[n]? = some r → r.own = true → r.answer = some true →
      r.connectionId ∈ s.ended → r.connectionId ∉ s.confirmed ∧ s.StillToSee r.connectionId
  | .succeed c _ at_ => s.phase c = .running → s.NewTime c at_
  | .delete c => (s.db.connections.find? c).isSome → c ∉ s.collecting
  | _ => True

def Along : PageState → List PageEvent → Prop
  | _, [] => True
  | s, e::events => s.Allowed e ∧ Along (s.step e) events

structure PollingInvariant (s : PageState) : Prop where
  waiting : ∀ c ∈ s.collecting, c ∈ s.ended → s.StillToSee c
  unseen : ∀ c ∈ s.ended, c ∉ s.shown → ∀ row, s.db.connections.find? c = some row →
    row.hasError = false → s.connections.times c ≠ some row.lastSuccessAt ∧
      ∀ r ∈ s.lists, ∀ t ∈ r.tick, t.before c ≠ some row.lastSuccessAt
  served : ∀ r ∈ s.lists, ∀ t ∈ r.tick, ∀ connections, r.answer = some (some connections) →
    ∀ c ∈ t.after, ∀ row, s.db.connections.find? c = some row → connections.find? c = some row
  after : ∀ r ∈ s.lists, ∀ t ∈ r.tick, t.after ⊆ s.ended
  running : ∀ c, s.phase c = .running → (c ∈ s.ended ↔ s.db.connections.find? c = none)
  clear : ∀ c ∈ s.confirmed, c ∈ s.ended ∧ c ∉ s.collecting

/-- What the invariant says of one request for the list. -/
structure Fits (s : PageState) (r : ListRequest) : Prop where
  unseen : ∀ t ∈ r.tick, ∀ c ∈ s.ended, c ∉ s.shown → ∀ row,
    s.db.connections.find? c = some row → row.hasError = false →
      t.before c ≠ some row.lastSuccessAt
  served : ∀ t ∈ r.tick, ∀ connections, r.answer = some (some connections) →
    ∀ c ∈ t.after, ∀ row, s.db.connections.find? c = some row → connections.find? c = some row
  after : ∀ t ∈ r.tick, t.after ⊆ s.ended

end PageState

section
variable {s : PageState} {t : Tick} {c : UUID}

namespace Tick

theorem settle_subset (rows : List ConnectionRow) (collecting : Finset UUID) :
    t.settle rows collecting ⊆ collecting := by
  induction rows generalizing collecting with
  | nil => exact Finset.Subset.refl _
  | cons row rows ih =>
    refine (ih _).trans ?_
    split
    · exact Finset.erase_subset _ _
    · exact Finset.Subset.refl _

theorem not_mem_settle {rows : List ConnectionRow} {row : ConnectionRow} (hrow : row ∈ rows)
    (hdone : t.isDone row = true) (collecting : Finset UUID) :
    row.connectionId ∉ t.settle rows collecting := by
  induction rows generalizing collecting with
  | nil => cases hrow
  | cons first rows ih =>
    rcases List.mem_cons.mp hrow with rfl | hrow
    · rw [settle]
      refine fun hmem => ?_
      have hsub := settle_subset (t := t) rows _ hmem
      split at hsub
      · exact absurd rfl (Finset.ne_of_mem_erase hsub)
      · rename_i hnot
        exact hnot ⟨hsub,hdone⟩
    · exact ih hrow _

end Tick

namespace PageState

theorem PollingInvariant.opened (h : s.Opened) : s.PollingInvariant where
  waiting c hc := by rw [h.collecting] at hc; cases hc
  unseen c _ _ row _ _ := by
    rw [h.connections,h.lists]
    exact ⟨by simp [ConnectionList.times,Table.find?,Table.empty],fun r hr => by cases hr⟩
  served r hr := by rw [h.lists] at hr; cases hr
  after r hr := by rw [h.lists] at hr; cases hr
  running := h.running
  clear c hc := by rw [h.confirmed] at hc; cases hc

/-- A smaller set of awaited connections keeps the invariant. -/
theorem PollingInvariant.collecting_subset (h : s.PollingInvariant) {collecting : Finset UUID}
    (hsub : collecting ⊆ s.collecting) (polling : Bool) :
    ({ s with collecting := collecting, polling := polling }).PollingInvariant where
  waiting c hc := h.waiting c (hsub hc)
  unseen := h.unseen
  served := h.served
  after := h.after
  running := h.running
  clear c hc := ⟨(h.clear c hc).1,fun hmem => (h.clear c hc).2 (hsub hmem)⟩

theorem PollingInvariant.fits (h : s.PollingInvariant) {r : ListRequest} (hr : r ∈ s.lists) :
    s.Fits r where
  unseen t ht c hc hs row hrow herr := (h.unseen c hc hs row hrow herr).2 r hr t ht
  served := h.served r hr
  after := h.after r hr

theorem PollingInvariant.lists_of_fits (h : s.PollingInvariant) {lists : List ListRequest}
    (hfits : ∀ r ∈ lists, s.Fits r) : ({ s with lists := lists }).PollingInvariant where
  waiting := h.waiting
  unseen c hc hs row hrow herr :=
    ⟨(h.unseen c hc hs row hrow herr).1,
      fun r hr t ht => (hfits r hr).unseen t ht c hc hs row hrow herr⟩
  served r hr := (hfits r hr).served
  after r hr := (hfits r hr).after
  running := h.running
  clear := h.clear

theorem showsSuccess_eq_true {connections : ConnectionList} {row : ConnectionRow}
    (hrow : s.db.connections.find? c = some row) :
    showsSuccess s.db connections c = true ↔
      row.hasError = false ∧ connections.times c = some row.lastSuccessAt := by
  simp [showsSuccess,hrow]

theorem PollingInvariant.show_ (h : s.PollingInvariant) {connections : ConnectionList}
    (hlist : ∀ c ∈ s.collecting, c ∈ s.ended → showsSuccess s.db connections c = false) :
    (s.show_ connections).PollingInvariant where
  waiting c hc he := by
    obtain ⟨row,hrow,hto⟩ := h.waiting c hc he
    refine ⟨row,hrow,hto.imp id fun hs hmem => ?_⟩
    rcases Finset.mem_union.mp hmem with hmem | hmem
    · exact hs hmem
    · exact Bool.false_ne_true ((hlist c hc he).symm.trans (Finset.mem_filter.mp hmem).2)
  unseen c he hs row hrow herr := by
    have hnot : c ∉ s.shown := fun hmem => hs (Finset.mem_union_left _ hmem)
    refine ⟨fun htimes => hs (Finset.mem_union_right _ (Finset.mem_filter.mpr ⟨he,?_⟩)),
      (h.unseen c he hnot row hrow herr).2⟩
    exact (showsSuccess_eq_true hrow).mpr ⟨herr,htimes⟩
  served := h.served
  after := h.after
  running := h.running
  clear := h.clear

theorem PollingInvariant.settle_of_success (h : s.PollingInvariant) {r : ListRequest}
    (hr : r ∈ s.lists) (ht : t ∈ r.tick) {connections : ConnectionList} (he : c ∈ s.ended)
    (hc : c ∈ t.settle connections.rows s.collecting) :
    showsSuccess s.db connections c = false := by
  obtain ⟨row,hrow,hto⟩ := h.waiting c (Tick.settle_subset _ _ hc) he
  refine Bool.eq_false_iff.mpr fun hshows => ?_
  obtain ⟨herr,htimes⟩ := (showsSuccess_eq_true hrow).mp hshows
  have hs : c ∉ s.shown := hto.resolve_left (by simp [herr])
  have hbefore := (h.unseen c he hs row hrow herr).2 r hr t ht
  obtain ⟨new,hnew,htime⟩ := Option.map_eq_some_iff.mp htimes
  obtain ⟨hmem,rfl⟩ := (Table.find?_eq_some _ _ _).mp hnew
  refine Tick.not_mem_settle hmem ?_ s.collecting hc
  rw [Tick.isDone,htime,decide_eq_true hbefore,Bool.true_or]

/-- A tick whose list was asked for after the end of a run no longer waits for it. -/
theorem PollingInvariant.settle_of_after (h : s.PollingInvariant) {r : ListRequest}
    (hr : r ∈ s.lists) (ht : t ∈ r.tick) {connections : ConnectionList}
    (hanswer : r.answer = some (some connections)) (hafter : c ∈ t.after) :
    c ∉ t.settle connections.rows s.collecting := by
  intro hc
  have he := h.after r hr t ht hafter
  obtain ⟨row,hrow,-⟩ := h.waiting c (Tick.settle_subset _ _ hc) he
  have hfind := h.served r hr t ht connections hanswer c hafter row hrow
  obtain ⟨hmem,hid⟩ := (Table.find?_eq_some _ _ _).mp hfind
  cases herr : row.hasError with
  | true =>
    subst hid
    refine Tick.not_mem_settle hmem ?_ s.collecting hc
    rw [Tick.isDone,herr,Bool.or_true]
  | false =>
    have hshows : showsSuccess s.db connections c = true :=
      (showsSuccess_eq_true hrow).mpr ⟨herr,by rw [ConnectionList.times,hfind]; rfl⟩
    exact Bool.false_ne_true ((h.settle_of_success hr ht he hc).symm.trans hshows)

theorem PollingInvariant.deliver (h : s.PollingInvariant) (n : ℕ) (hn : s.Allowed (.deliver n)) :
    (s.deliver n).PollingInvariant := by
  unfold PageState.deliver
  cases hlist : s.lists[n]? with
  | none => exact h
  | some r =>
    have hr : r ∈ s.lists := List.mem_of_getElem? hlist
    obtain ⟨tick,answer⟩ := r
    have hrest : ({ s with lists := s.lists.eraseIdx n }).PollingInvariant :=
      h.lists_of_fits fun x hx => h.fits (List.mem_of_mem_eraseIdx hx)
    rcases answer with _ | _ | connections
    · exact h
    · cases tick with
      | none => exact hrest
      | some t => exact hrest.collecting_subset (Tick.settle_subset _ _) _
    · cases tick with
      | none => exact hrest.show_ (hn _ connections hlist rfl rfl)
      | some t =>
        have hsub : t.settle connections.rows s.collecting ⊆ s.collecting :=
          Tick.settle_subset _ _
        have hshow := (hrest.collecting_subset hsub
          (s.polling && t.settle connections.rows s.collecting ≠ ∅)).show_
          fun c hc he => h.settle_of_success hr rfl he hc
        refine ⟨hshow.waiting,hshow.unseen,hshow.served,hshow.after,hshow.running,fun c hc => ?_⟩
        rcases Finset.mem_union.mp hc with hc | hc
        · exact hshow.clear c hc
        · exact ⟨h.after _ hr t rfl hc,h.settle_of_after hr rfl rfl hc⟩

theorem PollingInvariant.reload (h : s.PollingInvariant) : s.reload.PollingInvariant := by
  refine h.lists_of_fits fun r hr => ?_
  rcases List.mem_append.mp hr with hr | hr
  · exact h.fits hr
  · obtain rfl := List.mem_singleton.mp hr
    refine ⟨fun t ht => ?_,fun t ht => ?_,fun t ht => ?_⟩ <;> cases ht

theorem PollingInvariant.fire (h : s.PollingInvariant) : s.fire.PollingInvariant := by
  unfold PageState.fire
  split
  · refine h.lists_of_fits fun r hr => ?_
    rcases List.mem_append.mp hr with hr | hr
    · exact h.fits hr
    · obtain rfl := List.mem_singleton.mp hr
      -- the tick starts from what the page shows now, and has no answer yet
      refine ⟨fun t ht c hc hs row hrow herr => ?_,fun t _ connections hanswer => ?_,
        fun t ht => ?_⟩
      · obtain rfl := Option.some_inj.mp ht
        exact (h.unseen c hc hs row hrow herr).1
      · cases hanswer
      · obtain rfl := Option.some_inj.mp ht
        exact Finset.Subset.refl _
  · exact h

theorem mem_modify_lists {lists : List ListRequest} {f : ListRequest → ListRequest} {n : ℕ}
    {r : ListRequest} (hr : r ∈ lists.modify n f) : r ∈ lists ∨ ∃ q ∈ lists, r = f q := by
  obtain ⟨i,hi⟩ := List.mem_iff_getElem?.mp hr
  rw [List.getElem?_modify] at hi
  obtain ⟨q,hq,hrq⟩ := Option.map_eq_some_iff.mp hi
  have hmem := List.mem_of_getElem? hq
  split at hrq
  · exact .inr ⟨q,hmem,hrq.symm⟩
  · exact .inl (hrq ▸ hmem)

theorem PollingInvariant.answerList (h : s.PollingInvariant) (n : ℕ) (ok : Bool) :
    (s.answerList n ok).PollingInvariant := by
  refine h.lists_of_fits fun r hr => ?_
  rcases mem_modify_lists hr with hr | ⟨q,hq,rfl⟩
  · exact h.fits hr
  have hfits := h.fits hq
  split
  · refine ⟨hfits.unseen,fun t _ connections hanswer c _ row hrow => ?_,hfits.after⟩
    cases ok with
    | false => cases hanswer
    | true =>
      obtain rfl := Option.some_inj.mp (Option.some_inj.mp hanswer)
      exact hrow
  · exact hfits

theorem PollingInvariant.post (h : s.PollingInvariant) (c : UUID) (own : Bool) :
    (s.post c own).PollingInvariant :=
  ⟨h.waiting,h.unseen,h.served,h.after,h.running,h.clear⟩

theorem PollingInvariant.update_phase (h : s.PollingInvariant) (starts : List StartRequest)
    (c : UUID) {phase : RunPhase} (hphase : phase ≠ .running) :
    ({ s with starts := starts, phase := Function.update s.phase c phase }).PollingInvariant := by
  refine ⟨h.waiting,h.unseen,h.served,h.after,fun d hd => ?_,h.clear⟩
  replace hd : Function.update s.phase c phase d = .running := hd
  rcases eq_or_ne d c with rfl | hne
  · rw [Function.update_self] at hd
    exact absurd hd hphase
  · rw [Function.update_of_ne hne] at hd
    exact h.running d hd

theorem PollingInvariant.enter (h : s.PollingInvariant) (n : ℕ) : (s.enter n).PollingInvariant := by
  unfold PageState.enter
  split
  · exact h
  · split_ifs
    · exact h
    · exact ⟨h.waiting,h.unseen,h.served,h.after,h.running,h.clear⟩
    · exact h.update_phase _ _ (by decide)

theorem PollingInvariant.release (h : s.PollingInvariant) (c : UUID) :
    (s.release c).PollingInvariant := by
  unfold PageState.release
  split_ifs
  · exact h.update_phase s.starts c (by decide)
  · exact h

theorem PollingInvariant.reply (h : s.PollingInvariant) (n : ℕ) (hn : s.Allowed (.reply n)) :
    (s.reply n).PollingInvariant := by
  unfold PageState.reply
  split
  · exact h
  · rename_i r hr
    split_ifs with hnone hown
    · exact h
    · obtain ⟨howned,hanswer⟩ := Bool.and_eq_true_iff.mp hown
      have hallowed := hn r hr howned (of_decide_eq_true hanswer)
      refine ⟨fun c hc he => ?_,h.unseen,h.served,h.after,h.running,fun c hc => ?_⟩
      · rcases Finset.mem_insert.mp hc with rfl | hc
        · exact (hallowed he).2
        · exact h.waiting c hc he
      · obtain ⟨he,hnot⟩ := h.clear c hc
        refine ⟨he,fun hmem => ?_⟩
        rcases Finset.mem_insert.mp hmem with rfl | hmem
        · exact (hallowed he).1 hc
        · exact hnot hmem
    · exact ⟨h.waiting,h.unseen,h.served,h.after,h.running,h.clear⟩

theorem find?_markAttempt (now : Timestamp) (c d : UUID) (db : Database) :
    (ConnectionRepository.markAttempt now c db).connections.find? d =
      if d = c then (db.connections.find? d).map (ConnectionRepository.attempted now)
      else db.connections.find? d :=
  Table.find?_modify _ _ _ _ (ConnectionRepository.attempted_connectionId now)

theorem mem_lists_restarted {lists : List ListRequest} {r : ListRequest}
    (hr : r ∈ lists.map (ListRequest.restarted c)) (ht : t ∈ r.tick) :
    ∃ q ∈ lists, ∃ u ∈ q.tick, r.answer = q.answer ∧ t.before = u.before ∧
      t.after = u.after.erase c := by
  obtain ⟨q,hq,rfl⟩ := List.mem_map.mp hr
  obtain ⟨u,hu,rfl⟩ := Option.map_eq_some_iff.mp ht
  exact ⟨q,hq,u,hu,rfl,rfl,rfl⟩

theorem PollingInvariant.attempt (h : s.PollingInvariant) (n : ℕ) (now : Timestamp) (ok : Bool) :
    (s.attempt n now ok).PollingInvariant := by
  unfold PageState.attempt
  split
  · exact h
  rename_i r hr
  split_ifs with hdone hok
  · exact h
  · have hfind : ∀ d ≠ r.connectionId,
        (ConnectionRepository.markAttempt now r.connectionId s.db).connections.find? d =
          s.db.connections.find? d := fun d hd =>
      (find?_markAttempt now _ d s.db).trans (if_neg hd)
    have hself : (ConnectionRepository.markAttempt now r.connectionId s.db).connections.find?
        r.connectionId ≠ none := by
      have hsome := (Bool.and_eq_true_iff.mp hok).2
      refine fun hnone => ?_
      rw [find?_markAttempt,if_pos rfl,Option.map_eq_none_iff] at hnone
      rw [hnone] at hsome
      cases hsome
    refine ⟨fun d hd he => ?_,fun d he hs row hrow herr => ?_,?_,?_,fun d hd => ?_,fun d hd => ?_⟩
    · obtain ⟨hne,he⟩ := Finset.mem_erase.mp he
      obtain ⟨row,hrow,hto⟩ := h.waiting d hd he
      exact ⟨row,(hfind d hne).trans hrow,hto⟩
    · obtain ⟨hne,he⟩ := Finset.mem_erase.mp he
      obtain ⟨hpage,hticks⟩ := h.unseen d he hs row ((hfind d hne).symm.trans hrow) herr
      refine ⟨hpage,fun q hq t ht => ?_⟩
      obtain ⟨q',hq',u,hu,-,hbefore,-⟩ := mem_lists_restarted hq ht
      rw [hbefore]
      exact hticks q' hq' u hu
    · intro q hq t ht connections hanswer d hd row hrow
      obtain ⟨q',hq',u,hu,hans,-,hafter⟩ := mem_lists_restarted hq ht
      rw [hafter] at hd
      obtain ⟨hne,hd⟩ := Finset.mem_erase.mp hd
      exact h.served q' hq' u hu connections (hans ▸ hanswer) d hd row
        ((hfind d hne).symm.trans hrow)
    · intro q hq t ht
      obtain ⟨q',hq',u,hu,-,-,hafter⟩ := mem_lists_restarted hq ht
      rw [hafter]
      exact Finset.erase_subset_erase _ (h.after q' hq' u hu)
    · rcases eq_or_ne d r.connectionId with rfl | hne
      · exact ⟨fun hmem => absurd rfl (Finset.ne_of_mem_erase hmem),fun hnone => absurd hnone hself⟩
      · replace hd : Function.update s.phase r.connectionId .running d = .running := hd
        rw [Function.update_of_ne hne] at hd
        refine ⟨fun hmem => (hfind d hne).trans ((h.running d hd).mp (Finset.mem_of_mem_erase hmem)),
          fun hnone => Finset.mem_erase.mpr ⟨hne,(h.running d hd).mpr ?_⟩⟩
        exact (hfind d hne).symm.trans hnone
    · obtain ⟨hne,hd⟩ := Finset.mem_erase.mp hd
      obtain ⟨he,hnot⟩ := h.clear d hd
      exact ⟨Finset.mem_erase.mpr ⟨hne,he⟩,hnot⟩
  · exact h.update_phase _ _ (by decide)

/-- The commit of a run that leaves an error or a time that is new to the page. -/
theorem PollingInvariant.finish (h : s.PollingInvariant) {mark : Database → Database}
    {f : ConnectionRow → ConnectionRow}
    (hmark : ∀ d, (mark s.db).connections.find? d =
      if d = c then (s.db.connections.find? d).map f else s.db.connections.find? d)
    (hnew : s.phase c = .running → ∀ row, (f row).hasError = false →
      s.connections.times c ≠ some (f row).lastSuccessAt ∧
        ∀ r ∈ s.lists, ∀ t ∈ r.tick, t.before c ≠ some (f row).lastSuccessAt) :
    (s.finish c mark).PollingInvariant := by
  unfold PageState.finish
  split_ifs with hphase
  · have hfind : ∀ d ≠ c, (mark s.db).connections.find? d = s.db.connections.find? d :=
      fun d hd => (hmark d).trans (if_neg hd)
    have hself : (mark s.db).connections.find? c = (s.db.connections.find? c).map f :=
      (hmark c).trans (if_pos rfl)
    have hrunning := h.running c hphase
    refine ⟨fun d hd he => ?_,fun d he hs row hrow herr => ?_,?_,?_,fun d hd => ?_,fun d hd => ?_⟩
    · rcases eq_or_ne d c with rfl | hne
      · have hnot : d ∉ s.ended := fun he => by
          obtain ⟨row,hrow,-⟩ := h.waiting d hd he
          rw [hrunning.mp he] at hrow
          cases hrow
        obtain ⟨row,hrow⟩ := Option.ne_none_iff_exists'.mp fun hnone => hnot (hrunning.mpr hnone)
        refine ⟨f row,hself.trans (by rw [hrow]; rfl),.inr (Finset.notMem_erase _ _)⟩
      · obtain ⟨row,hrow,hto⟩ := h.waiting d hd ((Finset.mem_insert.mp he).resolve_left hne)
        exact ⟨row,(hfind d hne).trans hrow,
          hto.imp id fun hs hmem => hs (Finset.mem_of_mem_erase hmem)⟩
    · rcases eq_or_ne d c with rfl | hne
      · obtain ⟨old,-,rfl⟩ := Option.map_eq_some_iff.mp (hself.symm.trans hrow)
        exact hnew hphase old herr
      · have hs' : d ∉ s.shown := fun hmem => hs (Finset.mem_erase.mpr ⟨hne,hmem⟩)
        exact h.unseen d ((Finset.mem_insert.mp he).resolve_left hne) hs' row
          ((hfind d hne).symm.trans hrow) herr
    · intro r hr t ht connections hanswer d hd row hrow
      rcases eq_or_ne d c with rfl | hne
      · rw [hself,hrunning.mp (h.after r hr t ht hd)] at hrow
        cases hrow
      · exact h.served r hr t ht connections hanswer d hd row ((hfind d hne).symm.trans hrow)
    · exact fun r hr t ht => (h.after r hr t ht).trans (Finset.subset_insert _ _)
    · replace hd : Function.update s.phase c .committed d = .running := hd
      rcases eq_or_ne d c with rfl | hne
      · rw [Function.update_self] at hd
        cases hd
      · rw [Function.update_of_ne hne] at hd
        have hold := h.running d hd
        refine ⟨fun hmem => (hfind d hne).trans
          (hold.mp ((Finset.mem_insert.mp hmem).resolve_left hne)),fun hnone => ?_⟩
        exact Finset.mem_insert_of_mem (hold.mpr ((hfind d hne).symm.trans hnone))
    · exact ⟨Finset.mem_insert_of_mem (h.clear d hd).1,(h.clear d hd).2⟩
  · exact h

theorem find?_deleteWhere (connections : ConnectionList) (c d : UUID) :
    (connections.deleteWhere fun r => r.connectionId = c).find? d =
      if d = c then none else connections.find? d := by
  apply Option.ext
  intro row
  rw [Table.find?_eq_some,Table.mem_deleteWhere,decide_eq_false_iff_not]
  split_ifs with hd
  · subst hd
    simp
  · rw [Table.find?_eq_some]
    exact ⟨fun hrow => ⟨hrow.1.1,hrow.2⟩,fun hrow => ⟨⟨hrow.1,hrow.2 ▸ hd⟩,hrow.2⟩⟩

theorem PollingInvariant.delete (h : s.PollingInvariant) (hc : s.Allowed (.delete c)) :
    (s.delete c).PollingInvariant := by
  unfold PageState.delete
  split_ifs with hsome
  · have hnot : c ∉ s.collecting := hc hsome
    have hfind := find?_deleteWhere s.db.connections c
    have hold : ∀ {d : UUID} {row : ConnectionRow},
        (s.db.connections.deleteWhere fun r => r.connectionId = c).find? d = some row →
        d ≠ c ∧ s.db.connections.find? d = some row := by
      intro d row hrow
      rw [hfind] at hrow
      split_ifs at hrow with hd
      exact ⟨hd,hrow⟩
    refine ⟨fun d hd he => ?_,fun d he hs row hrow herr => ?_,?_,?_,fun d hd => ?_,fun d hd => ?_⟩
    · have hne : d ≠ c := fun hdc => hnot (hdc ▸ hd)
      obtain ⟨row,hrow,hto⟩ := h.waiting d hd ((Finset.mem_insert.mp he).resolve_left hne)
      exact ⟨row,(hfind d).trans ((if_neg hne).trans hrow),hto⟩
    · obtain ⟨hne,hrow⟩ := hold hrow
      exact h.unseen d ((Finset.mem_insert.mp he).resolve_left hne) hs row hrow herr
    · exact fun r hr t ht connections hanswer d hd row hrow =>
        h.served r hr t ht connections hanswer d hd row (hold hrow).2
    · exact fun r hr t ht => (h.after r hr t ht).trans (Finset.subset_insert _ _)
    · rcases eq_or_ne d c with rfl | hne
      · exact ⟨fun _ => (hfind d).trans (if_pos rfl),fun _ => Finset.mem_insert_self _ _⟩
      · have hrunning := h.running d hd
        have heq : (s.db.connections.deleteWhere fun r => r.connectionId = c).find? d =
            s.db.connections.find? d := (hfind d).trans (if_neg hne)
        exact ⟨fun hmem => heq.trans (hrunning.mp ((Finset.mem_insert.mp hmem).resolve_left hne)),
          fun hnone => Finset.mem_insert_of_mem (hrunning.mpr (heq.symm.trans hnone))⟩
    · obtain ⟨he,hclear⟩ := h.clear d hd
      exact ⟨Finset.mem_insert_of_mem he,hclear⟩
  · exact h

theorem PollingInvariant.create (h : s.PollingInvariant) (row : ConnectionRow) :
    (s.create row).PollingInvariant := by
  unfold PageState.create
  split_ifs with hfresh
  · exact h
  split
  · exact h
  rename_i connections hinsert
  have hfind : ∀ d ∈ s.ended, connections.find? d = s.db.connections.find? d := fun d hd => by
    rw [Table.find?_insert hinsert]
    exact if_neg fun (heq : row.connectionId = d) => hfresh (heq ▸ hd)
  refine ⟨fun d hd he => ?_,fun d he hs new hnew herr => ?_,?_,h.after,fun d hd => ?_,h.clear⟩
  · obtain ⟨old,hold,hto⟩ := h.waiting d hd he
    exact ⟨old,(hfind d he).trans hold,hto⟩
  · exact h.unseen d he hs new ((hfind d he).symm.trans hnew) herr
  · exact fun r hr t ht shown hanswer d hd new hnew => h.served r hr t ht shown hanswer d hd new
      ((hfind d (h.after r hr t ht hd)).symm.trans hnew)
  · have hrunning := h.running d hd
    refine ⟨fun he => (hfind d he).trans (hrunning.mp he),fun hnone => hrunning.mpr ?_⟩
    change connections.find? d = none at hnone
    rw [Table.find?_insert hinsert] at hnone
    split_ifs at hnone
    exact hnone

/-- Every allowed step keeps the invariant. -/
theorem PollingInvariant.step (h : s.PollingInvariant) (e : PageEvent) (he : s.Allowed e) :
    (s.step e).PollingInvariant := by
  cases e with
  | reload => exact h.reload
  | tick => exact h.fire
  | answerList n ok => exact h.answerList n ok
  | deliver n => exact h.deliver n he
  | post c own => exact h.post c own
  | enter n => exact h.enter n
  | attempt n now ok => exact h.attempt n now ok
  | reply n => exact h.reply n he
  | succeed c now at_ =>
    exact h.finish (fun d => Table.find?_modify _ _ _ _
      (ConnectionRepository.succeeded_connectionId now at_)) fun hphase _ _ => he hphase
  | fail c now error status =>
    have herror : ∀ row : ConnectionRow,
        (ConnectionRepository.failed now error.val status row).hasError = true := fun _ =>
      decide_eq_true error.property
    exact h.finish (fun d => Table.find?_modify _ _ _ _
      (ConnectionRepository.failed_connectionId now error.val status)) fun _ row hrow =>
      absurd (herror row) (by simp [hrow])
  | release c => exact h.release c
  | delete c => exact h.delete he
  | create row => exact h.create row

theorem PollingInvariant.run (h : s.PollingInvariant) (events : List PageEvent)
    (hallowed : s.Along events) : (s.run events).PollingInvariant := by
  induction events generalizing s with
  | nil => exact h
  | cons e events ih => exact ih (h.step e hallowed.1) hallowed.2

end PageState

/-- In every run of allowed steps, a connection whose run has ended or that has been deleted is no
longer shown as collecting once a later tick has loaded its list. -/
theorem finished_collection_not_shown (s : PageState) (hs : s.Opened) (events : List PageEvent)
    (hallowed : s.Along events) (c : UUID) (hc : c ∈ (s.run events).confirmed) :
    c ∉ (s.run events).collecting :=
  (((PageState.PollingInvariant.opened hs).run events hallowed).clear c hc).2

end

/-- A page opened on a server with one connection and no run. -/
def openedPage : PageState where
  connections := Table.empty
  collecting := ∅
  polling := false
  lists := []
  starts := []
  db := VirtualMachineRepository.emptyStore
  phase := fun _ => .idle
  ended := ∅
  shown := ∅
  confirmed := ∅

def loaded : List PageEvent := [.reload,.answerList 0 true,.deliver 0]

/-- The page has its list, asks for a collection and has its answer. -/
def collected : List PageEvent := loaded ++ [.post 7 true,.enter 0,.attempt 0 1 true,.reply 0]

def wholeTick : List PageEvent := [.tick,.answerList 0 true,.deliver 0]

theorem openedPage_opened : openedPage.Opened :=
  ⟨rfl,rfl,rfl,rfl,rfl,fun _ h => by cases h⟩

theorem collected_along : openedPage.Along (collected ++ .succeed 7 5 4::wholeTick) := by
  refine ⟨trivial,trivial,fun _ _ _ _ _ c hc => ?_,trivial,trivial,trivial,fun r hr _ _ he => ?_,
    fun _ => ⟨by decide,fun r hr => ?_⟩,trivial,trivial,fun r connections hr htick => ?_,trivial⟩
  · exact absurd hc (Finset.notMem_empty c)
  · obtain rfl := Option.some_inj.mp hr
    exact absurd he (by decide)
  · cases hr
  · obtain rfl := Option.some_inj.mp hr
    cases htick

/-- The collection ends, and the next tick sees it. -/
theorem finished_collection_not_shown_sample :
    7 ∈ (openedPage.run (collected ++ .succeed 7 5 4::wholeTick)).confirmed ∧
      7 ∉ (openedPage.run (collected ++ .succeed 7 5 4::wholeTick)).collecting :=
  ⟨by decide,finished_collection_not_shown openedPage openedPage_opened _ collected_along 7
    (by decide)⟩

/-- The end is missed when another reload shows it first, when the connection is deleted, and when
the answer to the start request comes after the list that shows it. -/
theorem finished_collection_still_shown :
    ¬ (∀ s : PageState, s.Opened → ∀ events c, c ∈ (s.run events).confirmed →
      c ∉ (s.run events).collecting) ∧
    7 ∈ (openedPage.run (collected ++ [.succeed 7 5 4,.reload,.answerList 0 true,.deliver 0] ++
      wholeTick)).collecting ∧
    7 ∈ (openedPage.run (collected ++ .delete 7::wholeTick)).collecting ∧
    7 ∈ (openedPage.run (loaded ++ [.post 7 true,.enter 0,.attempt 0 1 true,.succeed 7 5 4,.reload,
      .answerList 0 true,.deliver 0,.reply 0] ++ wholeTick)).collecting := by
  have hreload : 7 ∈ (openedPage.run (collected ++ [.succeed 7 5 4,.reload,.answerList 0 true,
      .deliver 0] ++ wholeTick)).collecting := by decide
  refine ⟨fun h => ?_,hreload,by decide,by decide⟩
  exact h openedPage openedPage_opened _ 7 (by decide) hreload

end WzonePortal
