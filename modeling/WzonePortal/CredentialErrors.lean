import WzonePortal.CollectionRuns

/-! Histories of one connection: collect requests and the background runs that they schedule,
in any order and with anything raised in them. Neither the request nor the run looks at the
stored status, so a run after a rejected sign-in signs in again. -/
namespace WzonePortal

open VirtualMachineRepository CollectService CollectRoute LockScript

/-- A request for the connection, or the start of a scheduled run. -/
inductive CollectEvent
  | request (env : Surroundings)
  | run (env : Surroundings)

structure History where
  world : World
  scheduled : ℕ := 0

namespace History

def afterRequest (scheduled : ℕ) : Except Raised Started → ℕ
  | .ok .accepted => scheduled + 1
  | _ => scheduled

/-- A run that is not scheduled does not start. -/
def step (batchSize : ℤ) (maskText : String → String) (c : UUID) (h : History) :
    CollectEvent → History
  | .request env =>
    let r := (startCollection c).run (World.exec env) h.world
    ⟨r.2,afterRequest h.scheduled r.1⟩
  | .run env =>
    if h.scheduled = 0 then h
    else ⟨((runCollection batchSize maskText c).run (World.exec env) h.world).2,h.scheduled - 1⟩

def replay (batchSize : ℤ) (maskText : String → String) (c : UUID) (h : History)
    (events : List CollectEvent) : History :=
  events.foldl (step batchSize maskText c) h

end History

def storedStatus (c : UUID) (db : Database) : Option ConnectionStatus :=
  (db.connections.find? c).map (·.status)

/-- A request that is not turned away as already running finds another status than the one of a
rejected sign-in. -/
def Acceptable (c : UUID) (h : History) : CollectEvent → Prop
  | .request _ => c ∈ h.world.running ∨ storedStatus c h.world.committed ≠ some .credentialError
  | .run _ => True

/-- Every event of the history meets the condition in the state before it. -/
def AllAcceptable (batchSize : ℤ) (maskText : String → String) (c : UUID) :
    List CollectEvent → History → Prop
  | [], _ => True
  | e::events, h => Acceptable c h e ∧
      AllAcceptable batchSize maskText c events (h.step batchSize maskText c e)

/-- What a request does, whatever is raised in it. -/
structure Requested (c : UUID) (w : World) (x : Except Raised Started) (u : World) : Prop where
  signIns : u.signIns = w.signIns
  status : storedStatus c u.committed = storedStatus c w.committed
  busy : c ∈ w.running → u.running = w.running ∧ x ≠ .ok .accepted
  accepted : x = .ok .accepted → c ∈ u.running

/-- The session of a request is open. -/
structure Preparing (c : UUID) (w u : World) : Prop where
  signIns : u.signIns = w.signIns
  committed : storedStatus c u.committed = storedStatus c w.committed
  working : storedStatus c (u.working .request) = storedStatus c w.committed
  running : c ∈ u.running

/-- The statements of that session. -/
def InRequest (c : UUID) : LockOp UUID CollectionStep → Prop
  | .step (.get _) => True
  | .step (.markAttempt d) => d = c
  | .step (.commit part) => part = .request
  | .step (.closeSession part) => part = .request
  | _ => False

section
variable {c : UUID} {w u : World} {env : Surroundings}

theorem storedStatus_markAttempt (now : Timestamp) (db : Database) :
    storedStatus c (ConnectionRepository.markAttempt now c db) = storedStatus c db := by
  simp only [storedStatus,ConnectionRepository.markAttempt,Table.find?_modify,if_pos,
    Option.map_map]
  rfl

theorem Preparing.exec {o : LockOp UUID CollectionStep} (ho : InRequest c o)
    (h : Preparing c w u) : Preparing c w (World.exec env o u).2 := by
  cases o with
  | enter d => exact ho.elim
  | discard d => exact ho.elim
  | step s =>
    have hdisturbed : World.disturbed env s u = u := by
      cases s <;> first | rfl | exact ho.elim
    have hperform : Preparing c w (World.perform env s u).2 := by
      cases s with
      | get d => exact h
      | markAttempt d =>
        cases ho
        refine ⟨h.signIns,h.committed,?_,h.running⟩
        simp only [World.perform,World.setWorking_self,storedStatus_markAttempt]
        exact h.working
      | commit part =>
        cases ho
        exact ⟨h.signIns,h.working,h.working,h.running⟩
      | closeSession part =>
        cases ho
        refine ⟨h.signIns,h.committed,?_,h.running⟩
        simp only [World.perform,World.setWorking_self]
        exact h.committed
      | _ => exact ho.elim
    simp only [World.exec]
    split
    · rw [hdisturbed]
      exact ⟨h.signIns,h.committed,h.working,h.running⟩
    · exact ⟨hperform.signIns,hperform.committed,hperform.working,hperform.running⟩

theorem preparing_session (hcommitted : storedStatus c u.committed = storedStatus c w.committed)
    (hsignIns : u.signIns = w.signIns) (hrunning : c ∈ u.running) :
    (withSession .request do
      let found ← step (CollectionStep.get c)
      Script.require found.isSome (.portal "NotFoundError" "연결을 찾을 수 없습니다.")
      step (CollectionStep.markAttempt c)
      step (CollectionStep.commit .request) : Collection Unit).meets (World.exec env) u fun _ v =>
        v.signIns = w.signIns ∧ storedStatus c v.committed = storedStatus c w.committed ∧
          c ∈ v.running := by
  have hbody : (Script.tryFinally (do
      let found ← step (CollectionStep.get c)
      Script.require found.isSome (.portal "NotFoundError" "연결을 찾을 수 없습니다.")
      step (CollectionStep.markAttempt c)
      step (CollectionStep.commit .request) : Collection Unit)
      (step (CollectionStep.closeSession .request))).Issues (InRequest c) := by
    refine Script.Issues.tryFinally ?_ (issues_step rfl)
    refine issues_then trivial fun found => (Script.issues_require _ _).bind fun _ => ?_
    exact issues_then rfl fun _ => issues_step rfl
  refine Script.meets_bind (R:=fun x v => (x = .ok () → Preparing c w v) ∧
    v.signIns = w.signIns ∧ storedStatus c v.committed = storedStatus c w.committed ∧
      c ∈ v.running) (Script.meets_perform ?_) ?_ fun e v hv => hv.2
  · simp only [World.exec]
    split
    · refine ⟨fun hok => ?_,hsignIns,hcommitted,hrunning⟩
      cases hok
    · refine ⟨fun _ => ⟨hsignIns,hcommitted,?_,hrunning⟩,hsignIns,hcommitted,hrunning⟩
      simp only [World.perform,World.tick,World.setWorking_self]
      exact hcommitted
  · rintro _ v ⟨hopen,_⟩
    have hstep : ∀ o v, InRequest c o → Preparing c w v → Preparing c w (World.exec env o v).2 :=
      fun o v ho hv => hv.exec ho
    have h := hbody.run hstep (hopen rfl)
    exact ⟨h.signIns,h.committed,h.running⟩

theorem meets_enter {Q : Except Raised Bool → World → Prop}
    (htaken : c ∈ w.running → Q (.ok true) w)
    (hfree : c ∉ w.running → Q (.ok false) { w with running := insert c w.running }) :
    (enter c : Collection Bool).meets (World.exec env) w Q := by
  refine Script.meets_perform ?_
  simp only [World.exec]
  split
  · exact htaken ‹_›
  · exact hfree ‹_›

theorem requested_startCollection :
    (startCollection c).meets (World.exec env) w (Requested c w) := by
  refine Script.meets_bind (R:=fun _ u => u = w.tick) (meets_idle rfl rfl fun _ => rfl) ?_ ?_
  · rintro _ u rfl
    refine Script.meets_bind (R:=fun x u => (x = .ok true ∧ u = w.tick) ∨ (x = .ok false ∧
      c ∉ w.running ∧ u = { w.tick with running := insert c w.running }))
      (meets_enter (fun _ => .inl ⟨rfl,rfl⟩) fun hfree => .inr ⟨rfl,hfree,rfl⟩) ?_ ?_
    · rintro taken u (⟨htaken,rfl⟩ | ⟨htaken,hfree,rfl⟩)
      · cases htaken
        exact ⟨rfl,rfl,fun _ => ⟨rfl,by simp⟩,by simp⟩
      · cases htaken
        refine Script.meets_bind (R:=fun _ u => u = World.tick { w.tick with
          running := insert c w.running }) (meets_idle rfl rfl fun _ => rfl) ?_ ?_
        · rintro _ u rfl
          refine Script.meets_bind (R:=fun x u => u.signIns = w.signIns ∧
            storedStatus c u.committed = storedStatus c w.committed ∧
              (x = .ok () → c ∈ u.running)) (Script.meets_tryCatch
                (preparing_session (w:=w) rfl rfl (Finset.mem_insert_self c _)) ?_ ?_) ?_ ?_
          · exact fun _ v hv => ⟨hv.1,hv.2.1,fun _ => hv.2.2⟩
          · exact fun e v hv => ⟨hv.1,hv.2.1,fun hok => by cases hok⟩
          · exact fun _ v hv => ⟨hv.1,hv.2.1,fun hbusy => absurd hbusy hfree,fun _ => hv.2.2 rfl⟩
          · exact fun e v hv => ⟨hv.1,hv.2.1,fun hbusy => absurd hbusy hfree,fun hok => by cases hok⟩
        · rintro e u rfl
          exact ⟨rfl,rfl,fun hbusy => absurd hbusy hfree,by simp⟩
    · rintro e u (⟨he,_⟩ | ⟨he,_⟩) <;> cases he
  · rintro e u rfl
    exact ⟨rfl,rfl,fun _ => ⟨rfl,by simp⟩,by simp⟩

end

/-- At most one run is scheduled; then the connection is entered and its stored status is not
the one of a rejected sign-in. -/
def OneScheduled (c : UUID) (h : History) : Prop :=
  h.scheduled = 0 ∨ (h.scheduled = 1 ∧ c ∈ h.world.running ∧
    storedStatus c h.world.committed ≠ some .credentialError)

section
variable {batchSize : ℤ} {maskText : String → String} {c : UUID} {h : History}

theorem afterRequest_cases (n : ℕ) (x : Except Raised Started) :
    (x = .ok .accepted ∧ History.afterRequest n x = n+1) ∨
      (x ≠ .ok .accepted ∧ History.afterRequest n x = n) := by
  match x with
  | .ok .accepted => exact .inl ⟨rfl,rfl⟩
  | .ok .alreadyRunning => exact .inr ⟨by simp,rfl⟩
  | .error e => exact .inr ⟨by simp,rfl⟩

theorem oneScheduled_step {e : CollectEvent} (he : Acceptable c h e) (hone : OneScheduled c h) :
    OneScheduled c (h.step batchSize maskText c e) := by
  cases e with
  | request env =>
    have hr : Requested c h.world _ _ :=
      @requested_startCollection c h.world env
    rcases afterRequest_cases h.scheduled ((startCollection c).run (World.exec env) h.world).1 with
      ⟨haccepted,hn⟩ | ⟨hrefused,hn⟩
    · have hfree : c ∉ h.world.running := fun hbusy => (hr.busy hbusy).2 haccepted
      have hzero : h.scheduled = 0 := hone.elim id fun hone => absurd hone.2.1 hfree
      refine .inr ⟨by rw [History.step,hn,hzero],hr.accepted haccepted,?_⟩
      have hstatus : storedStatus c h.world.committed ≠ some .credentialError :=
        he.resolve_left hfree
      exact fun hcred => hstatus (hr.status.symm.trans hcred)
    · rcases hone with hzero | ⟨hscheduled,hbusy,hstatus⟩
      · exact .inl (hn.trans hzero)
      · refine .inr ⟨hn.trans hscheduled,?_,fun hcred => hstatus (hr.status.symm.trans hcred)⟩
        change c ∈ ((startCollection c).run (World.exec env) h.world).2.running
        rw [(hr.busy hbusy).1]
        exact hbusy
  | run env =>
    simp only [History.step]
    rcases hone with hzero | ⟨hscheduled,_,_⟩
    · rw [if_pos hzero]
      exact .inl hzero
    · rw [if_neg (by omega)]
      exact .inl (by simp [hscheduled])

theorem oneScheduled_replay {events : List CollectEvent}
    (hall : AllAcceptable batchSize maskText c events h) (hone : OneScheduled c h) :
    OneScheduled c (h.replay batchSize maskText c events) := by
  induction events generalizing h with
  | nil => exact hone
  | cons e events ih => exact ih hall.2 (oneScheduled_step hall.1 hone)

/-- The last sign-in was rejected, and no run is scheduled. -/
structure Stopped (c : UUID) (signIns : List Connection) (h : History) : Prop where
  signIns : h.world.signInsOf c = signIns
  scheduled : h.scheduled = 0
  status : storedStatus c h.world.committed = some .credentialError

theorem stopped_step {signIns : List Connection} {e : CollectEvent} (he : Acceptable c h e)
    (hstopped : Stopped c signIns h) : Stopped c signIns (h.step batchSize maskText c e) := by
  cases e with
  | request env =>
    have hr : Requested c h.world _ _ :=
      @requested_startCollection c h.world env
    have hbusy : c ∈ h.world.running := he.resolve_right fun hne => hne hstopped.status
    refine ⟨?_,?_,hr.status.trans hstopped.status⟩
    · rw [← hstopped.signIns]
      exact congrArg (List.filter _) hr.signIns
    · rcases afterRequest_cases h.scheduled
        ((startCollection c).run (World.exec env) h.world).1 with ⟨haccepted,_⟩ | ⟨_,hn⟩
      · exact absurd haccepted (hr.busy hbusy).2
      · exact hn.trans hstopped.scheduled
  | run env =>
    simp only [History.step]
    rw [if_pos hstopped.scheduled]
    exact hstopped

theorem stopped_replay {signIns : List Connection} {events : List CollectEvent}
    (hall : AllAcceptable batchSize maskText c events h) (hstopped : Stopped c signIns h) :
    Stopped c signIns (h.replay batchSize maskText c events) := by
  induction events generalizing h with
  | nil => exact hstopped
  | cons e events ih => exact ih hall.2 (stopped_step hall.1 hstopped)

theorem allAcceptable_append {earlier later : List CollectEvent} :
    AllAcceptable batchSize maskText c (earlier ++ later) h ↔
      AllAcceptable batchSize maskText c earlier h ∧
        AllAcceptable batchSize maskText c later (h.replay batchSize maskText c earlier) := by
  induction earlier generalizing h with
  | nil => simp [AllAcceptable,History.replay]
  | cons e earlier ih =>
    rw [List.cons_append,AllAcceptable,ih,AllAcceptable,and_assoc]
    rfl

end

def History.start (db : Database) : History := ⟨World.fresh ∅ db,0⟩

/-- In every history whose requests meet the condition, a run that has stored the status of a
rejected sign-in is the last one that signs in. -/
theorem no_login_after_failure (batchSize : ℤ) (maskText : String → String) (c : UUID)
    (db : Database) (earlier later : List CollectEvent)
    (hall : AllAcceptable batchSize maskText c (earlier ++ later) (History.start db))
    (hfailed : storedStatus c ((History.start db).replay batchSize maskText c
      earlier).world.committed = some .credentialError) :
    ((History.start db).replay batchSize maskText c (earlier ++ later)).world.signInsOf c =
      ((History.start db).replay batchSize maskText c earlier).world.signInsOf c := by
  obtain ⟨hearlier,hlater⟩ := allAcceptable_append.mp hall
  have hone := oneScheduled_replay hearlier (.inl rfl)
  have hzero : ((History.start db).replay batchSize maskText c earlier).scheduled = 0 :=
    hone.elim id fun hone => absurd hfailed hone.2.2
  have hstopped := stopped_replay hlater ⟨rfl,hzero,hfailed⟩
  rw [History.replay,List.foldl_append]
  exact hstopped.signIns

def rejecting : Surroundings :=
  { calm with fault := fun _ s => match s with
      | .startSession _ => some (.authentication "인증에 실패했습니다. 계정 또는 비밀번호를 확인하세요.")
      | _ => none }

theorem acceptable_emptyStore :
    storedStatus 7 (History.start emptyStore).world.committed ≠ some .credentialError := by
  decide

theorem rejected_status : storedStatus 7 ((History.start emptyStore).replay 500 id 7
    [.request rejecting,.run rejecting]).world.committed = some .credentialError := rfl

/-- A rejected run, then a start that is not scheduled. -/
theorem no_login_after_failure_rejected :
    ((History.start emptyStore).replay 500 id 7
      [.request rejecting,.run rejecting,.run rejecting]).world.signInsOf 7 =
      ((History.start emptyStore).replay 500 id 7
        [.request rejecting,.run rejecting]).world.signInsOf 7 :=
  no_login_after_failure 500 id 7 emptyStore [.request rejecting,.run rejecting] [.run rejecting]
    ⟨.inr acceptable_emptyStore,trivial,trivial,trivial⟩ rejected_status

/-- The second request is accepted and its run presents the rejected password again. -/
theorem second_login_after_failure :
    let once := (History.start emptyStore).replay 500 id 7 [.request rejecting,.run rejecting]
    let twice := (History.start emptyStore).replay 500 id 7
      [.request rejecting,.run rejecting,.request rejecting,.run rejecting]
    storedStatus 7 once.world.committed = some .credentialError ∧
      (once.world.signInsOf 7).length = 1 ∧ (twice.world.signInsOf 7).length = 2 :=
  ⟨rejected_status,rfl,rfl⟩

end WzonePortal
