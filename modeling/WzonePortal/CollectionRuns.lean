import WzonePortal.CollectionWorld
import WzonePortal.VmUpsertHistory

/-! One background run from its first statement to its last. Inside its transaction a run
touches the row of its own connection and adds machines; an exception before the commit drops
all of it, and every way to the end leaves a completion marker. -/
namespace WzonePortal

open ConnectionRepository VirtualMachineRepository CollectService CollectRoute LockScript

/-- Every machine row is still there, possibly with other values. -/
def KeepsMachines (db db' : Database) : Prop :=
  ∀ r ∈ db.virtualMachines.rows, ∃ q ∈ db'.virtualMachines.rows, q.resourceId = r.resourceId

theorem KeepsMachines.refl (db : Database) : KeepsMachines db db := fun r hr => ⟨r,hr,rfl⟩

theorem KeepsMachines.trans {db mid db' : Database} (h : KeepsMachines db mid)
    (h' : KeepsMachines mid db') : KeepsMachines db db' := by
  intro r hr
  obtain ⟨q,hq,hid⟩ := h r hr
  obtain ⟨p,hp,hid'⟩ := h' q hq
  exact ⟨p,hp,hid'.trans hid⟩

section
variable {uuid4 : ℕ → UUID} {c : UUID} {t : Timestamp} {vm : VirtualMachine}
  {vms : List VirtualMachine} {db : Database}

theorem keepsMachines_updateVm {id : UUID} {changed : Bool × Database}
    (h : updateVm db id vm t = .ok changed) :
    changed.2.connections = db.connections ∧ KeepsMachines db changed.2 := by
  unfold updateVm at h
  split at h
  · cases h
    exact ⟨rfl,.refl db⟩
  · obtain ⟨_,_,h⟩ := bind_eq_ok.mp h
    cases h
    refine ⟨rfl,fun r hr => ⟨_,(Table.mem_modify _ _ _ (refreshed_resourceId vm t) _).mpr
      ⟨r,hr,rfl⟩,?_⟩⟩
    split <;> rfl

theorem keepsMachines_upsertOne {s s' : UpsertState} (h : upsertOne uuid4 c t s vm = .ok s') :
    s'.db.connections = s.db.connections ∧ KeepsMachines s.db s'.db := by
  rcases upsertOne_cases h with hi | ⟨m,changed,hu⟩
  · obtain ⟨mid,hinsert,hsync⟩ := hi.stored
    obtain ⟨_,_,_,hrows,_,hconns⟩ := insertVm_ok hinsert
    obtain ⟨hvms,hconns',_⟩ := syncIdentities_ok hsync
    refine ⟨hconns'.trans hconns,fun r hr => ⟨r,?_,rfl⟩⟩
    rw [hvms,hrows]
    exact List.mem_append_left _ hr
  · obtain ⟨hconns,hkeeps⟩ := keepsMachines_updateVm hu.updated
    obtain ⟨hvms,hconns',_⟩ := syncIdentities_ok hu.stored
    refine ⟨hconns'.trans hconns,fun r hr => ?_⟩
    rw [hvms]
    exact hkeeps r hr

theorem keepsMachines_upsertAll {s s' : UpsertState} (h : upsertAll uuid4 c t vms s = .ok s') :
    s'.db.connections = s.db.connections ∧ KeepsMachines s.db s'.db := by
  induction vms generalizing s with
  | nil =>
    cases h
    exact ⟨rfl,.refl _⟩
  | cons vm vms ih =>
    obtain ⟨mid,hone,hrest⟩ := bind_eq_ok.mp h
    obtain ⟨hconns,hkeeps⟩ := keepsMachines_upsertOne hone
    obtain ⟨hconns',hkeeps'⟩ := ih hrest
    exact ⟨hconns'.trans hconns,hkeeps.trans hkeeps'⟩

theorem keepsMachines_upsert {stored : UpsertResult × Database}
    (h : upsertVirtualMachines uuid4 db c vms t = .ok stored) :
    stored.2.connections = db.connections ∧ KeepsMachines db stored.2 := by
  obtain ⟨s,hs,h⟩ := bind_eq_ok.mp h
  cases h
  exact keepsMachines_upsertAll hs

end

/-- What collecting the connection `c` may change: its own row, and more machines. -/
structure Changed (c : UUID) (db db' : Database) : Prop where
  others : ∀ d, d ≠ c → db'.connections.find? d = db.connections.find? d
  exists_ : (db'.connections.find? c).isSome = (db.connections.find? c).isSome
  kept : KeepsMachines db db'

namespace Changed

variable {c : UUID} {db mid db' : Database}

theorem refl (c : UUID) (db : Database) : Changed c db db := ⟨fun _ _ => rfl,rfl,.refl db⟩

theorem trans (h : Changed c db mid) (h' : Changed c mid db') : Changed c db db' :=
  ⟨fun d hd => (h'.others d hd).trans (h.others d hd),h'.exists_.trans h.exists_,
    h.kept.trans h'.kept⟩

theorem modify (db : Database) (f : ConnectionRow → ConnectionRow)
    (hf : ∀ r, (f r).connectionId = r.connectionId) :
    Changed c db { db with connections := db.connections.modify c f hf } := by
  refine ⟨fun d hd => ?_,?_,.refl db⟩
  · rw [Table.find?_modify,if_neg hd]
  · rw [Table.find?_modify,if_pos rfl,Option.isSome_map]

theorem upsert {uuid4 : ℕ → UUID} {t : Timestamp} {d : UUID} {vms : List VirtualMachine}
    {stored : UpsertResult × Database}
    (h : upsertVirtualMachines uuid4 db d vms t = .ok stored) : Changed c db stored.2 := by
  obtain ⟨hconns,hkept⟩ := keepsMachines_upsert h
  exact ⟨fun _ _ => by rw [hconns],by rw [hconns],hkept⟩

end Changed

def World.signInsOf (w : World) (c : UUID) : List Connection :=
  w.signIns.filter fun conn => conn.connectionId = c

/-- The transaction of the run of `c` that started on `db`, before its commit. -/
structure InRun (c : UUID) (start w : World) : Prop where
  committed : w.committed = start.committed
  commits : w.runCommits = start.runCommits
  running : w.running = start.running
  signIns : ∀ d, d ≠ c → w.signInsOf d = start.signInsOf d
  changed : Changed c start.committed (w.working .run)

section
variable {env : Surroundings} {conn : Connection} {start w : World}

theorem InRun.setWorking {c : UUID} (h : InRun c start w) {db : Database}
    (hdb : Changed c start.committed db) : InRun c start (w.setWorking .run db) :=
  ⟨h.committed,h.commits,h.running,h.signIns,by rw [World.setWorking_self]; exact hdb⟩

theorem InRun.tick {c : UUID} (h : InRun c start w) : InRun c start w.tick :=
  ⟨h.committed,h.commits,h.running,h.signIns,h.changed⟩

theorem InRun.signIn (h : InRun conn.connectionId start w) :
    InRun conn.connectionId start { w with signIns := conn::w.signIns } := by
  refine ⟨h.committed,h.commits,h.running,fun d hd => ?_,h.changed⟩
  rw [World.signInsOf,List.filter_cons_of_neg (by simpa using hd.symm)]
  exact h.signIns d hd

theorem InRun.perform {s : CollectionStep} (hs : Inner conn (.step s))
    (h : InRun conn.connectionId start w) :
    InRun conn.connectionId start (World.perform env s w).2 := by
  cases s with
  | upsert c batch observedAt =>
    simp only [World.perform]
    split
    · rename_i stored hstored
      exact h.setWorking (h.changed.trans (.upsert hstored))
    · exact h.setWorking (by rw [h.committed]; exact .refl _ _)
  | markSuccess c at_ =>
    cases hs
    exact h.setWorking (h.changed.trans (.modify _ _ _))
  | markFailure part c error status =>
    obtain ⟨rfl,rfl⟩ := hs
    exact h.setWorking (h.changed.trans (.modify _ _ _))
  | startSession c =>
    cases hs
    exact h.signIn
  | now => exact h
  | log part => exact h
  | buildReader c => exact h
  | listVirtualMachines => exact h
  | closeReader => exact h
  | getOutcomes => exact h
  | authorize => exact hs.elim
  | buildCipher part => exact hs.elim
  | openSession part => exact hs.elim
  | closeSession part => exact hs.elim
  | commit part => exact hs.elim
  | rollback part => exact hs.elim
  | get c => exact hs.elim
  | loadWithPassword c => exact hs.elim
  | markAttempt c => exact hs.elim

theorem InRun.disturbed {s : CollectionStep} (hs : Inner conn (.step s))
    (h : InRun conn.connectionId start w) :
    InRun conn.connectionId start (World.disturbed env s w) := by
  cases s with
  | upsert c batch observedAt =>
    simp only [World.disturbed]
    split
    · rename_i stored hstored
      exact h.setWorking (h.changed.trans (.upsert hstored))
    · exact h
  | startSession c =>
    cases hs
    exact h.signIn
  | _ => exact h

theorem InRun.exec {o : LockOp UUID CollectionStep} (ho : Inner conn o)
    (h : InRun conn.connectionId start w) :
    InRun conn.connectionId start (World.exec env o w).2 := by
  cases o with
  | enter c => exact ho.elim
  | discard c => exact ho.elim
  | step s =>
    simp only [World.exec]
    split
    · exact (h.disturbed ho).tick
    · exact (h.perform ho).tick

theorem meets_idle {s : CollectionStep} (hperform : (World.perform env s w).2 = w)
    (hdisturbed : World.disturbed env s w = w) {Q : Except Raised s.Ans → World → Prop}
    (h : ∀ x, Q x w.tick) : (step s : Collection s.Ans).meets (World.exec env) w Q := by
  refine Script.meets_perform ?_
  simp only [World.exec]
  split
  · rw [hdisturbed]
    exact h _
  · rw [hperform]
    exact h _

theorem meets_spared (henv : env.SparesRecorder) {s : CollectionStep} (hs : s.spared = true)
    {Q : Except Raised s.Ans → World → Prop}
    (h : Q (World.perform env s w).1 (World.perform env s w).2.tick) :
    (step s : Collection s.Ans).meets (World.exec env) w Q := by
  refine Script.meets_perform ?_
  simp only [World.exec,henv _ s hs]
  exact h

theorem meets_inner {s : CollectionStep} (hs : Inner conn (.step s))
    (h : InRun conn.connectionId start w) :
    (step s : Collection s.Ans).meets (World.exec env) w fun _ w' =>
      InRun conn.connectionId start w' :=
  Script.meets_perform (h.exec hs)

end

/-- The completion marker that the interface polls for. -/
def Marked (c : UUID) (observedAt : Timestamp) (db : Database) : Prop :=
  ∃ row, db.connections.find? c = some row ∧
    (row.lastError ≠ none ∨ row.lastSuccessAt = some observedAt)

theorem marked_markFailure {c : UUID} {db : Database} (h : (db.connections.find? c).isSome)
    (now observedAt : Timestamp) (error : String) (status : ConnectionStatus) :
    Marked c observedAt (ConnectionRepository.markFailure now c error status db) := by
  obtain ⟨row,hrow⟩ := Option.isSome_iff_exists.mp h
  refine ⟨failed now error status row,?_,.inl (Option.some_ne_none _)⟩
  simp only [ConnectionRepository.markFailure,Table.find?_modify,if_pos,hrow,Option.map_some]

theorem marked_markSuccess {c : UUID} {db : Database} (h : (db.connections.find? c).isSome)
    (now observedAt : Timestamp) :
    Marked c observedAt (ConnectionRepository.markSuccess now c observedAt db) := by
  obtain ⟨row,hrow⟩ := Option.isSome_iff_exists.mp h
  refine ⟨succeeded now observedAt row,?_,.inr rfl⟩
  simp only [ConnectionRepository.markSuccess,Table.find?_modify,if_pos,hrow,Option.map_some]

/-- Still in the transaction, with `P` in the working copy wherever the answer is one of `final`. -/
def Collected {α : Type} (conn : Connection) (P : Database → Prop) (start : World)
    (final : α → Prop) (x : Except Raised α) (w : World) : Prop :=
  InRun conn.connectionId start w ∧ ∀ a, x = .ok a → final a → P (w.working .run)

section
variable {env : Surroundings} {conn : Connection} {start w : World} {P : Database → Prop}
  {α : Type} {final : α → Prop}

theorem collected_error {e : Raised} (h : InRun conn.connectionId start w) :
    Collected conn P start final (.error e) w := by
  refine ⟨h,fun a ha => ?_⟩
  cases ha

theorem collected_pure (h : InRun conn.connectionId start w) {a : α}
    (hP : final a → P (w.working .run)) :
    (pure a : Collection α).meets (World.exec env) w (Collected conn P start final) := by
  refine Script.meets_pure ⟨h,fun b hb hfinal => ?_⟩
  cases hb
  exact hP hfinal

theorem collected_then {s : CollectionStep} (hs : Inner conn (.step s))
    (h : InRun conn.connectionId start w) {f : s.Ans → Collection α}
    (hf : ∀ a w', InRun conn.connectionId start w' →
      (f a).meets (World.exec env) w' (Collected conn P start final)) :
    (step s >>= f).meets (World.exec env) w (Collected conn P start final) :=
  Script.meets_bind (meets_inner hs h) (fun a w' => hf a w') fun _ _ h => collected_error h

theorem collected_answer {s : CollectionStep} (hs : Inner conn (.step s))
    (h : InRun conn.connectionId start w) {a : s.Ans} (ha : (World.perform env s w).1 = .ok a)
    {f : s.Ans → Collection α}
    (hf : ∀ w', InRun conn.connectionId start w' →
      (f a).meets (World.exec env) w' (Collected conn P start final)) :
    (step s >>= f).meets (World.exec env) w (Collected conn P start final) := by
  refine Script.meets_bind (R:=fun x w' => InRun conn.connectionId start w' ∧
    ∀ b, x = .ok b → b = a) (Script.meets_perform ⟨h.exec hs,fun b hb => ?_⟩) ?_
    fun e w' hw' => collected_error hw'.1
  · simp only [World.exec] at hb
    split at hb
    · cases hb
    · exact Except.ok.inj (hb.symm.trans ha)
  · rintro b w' ⟨hw',hb⟩
    rw [hb b rfl]
    exact hf w' hw'

theorem collected_mark {s : CollectionStep} (hs : Inner conn (.step s))
    (h : InRun conn.connectionId start w)
    (hP : P ((World.perform env s w).2.working .run)) {f : s.Ans → Collection α}
    (hf : ∀ a w', InRun conn.connectionId start w' → P (w'.working .run) →
      (f a).meets (World.exec env) w' (Collected conn P start final)) :
    (step s >>= f).meets (World.exec env) w (Collected conn P start final) := by
  refine Script.meets_bind (R:=fun x w' => InRun conn.connectionId start w' ∧
    ∀ a, x = .ok a → P (w'.working .run)) (Script.meets_perform ⟨h.exec hs,fun a ha => ?_⟩)
    (fun a w' hw' => hf a w' hw'.1 (hw'.2 a rfl)) fun e w' hw' => collected_error hw'.1
  simp only [World.exec] at ha ⊢
  split
  · rename_i e he
    rw [he] at ha
    cases ha
  · exact hP

theorem collected_markFailure (h : InRun conn.connectionId start w) (error : String)
    (status : ConnectionStatus)
    (hP : ∀ now db, Changed conn.connectionId start.committed db →
      P (ConnectionRepository.markFailure now conn.connectionId error status db))
    {f : Unit → Collection α}
    (hf : ∀ w', InRun conn.connectionId start w' → P (w'.working .run) →
      (f ()).meets (World.exec env) w' (Collected conn P start final)) :
    (step (CollectionStep.markFailure .run conn.connectionId error status) >>= f).meets
      (World.exec env) w (Collected conn P start final) := by
  refine collected_mark (s:=.markFailure .run conn.connectionId error status) ⟨rfl,rfl⟩ h ?_
    fun _ => hf
  simp only [World.perform,World.setWorking_self]
  exact hP _ _ h.changed

theorem collected_markSuccess {t : Timestamp} (h : InRun conn.connectionId start w)
    (hP : ∀ now db, Changed conn.connectionId start.committed db →
      P (ConnectionRepository.markSuccess now conn.connectionId t db))
    {f : Unit → Collection α}
    (hf : ∀ w', InRun conn.connectionId start w' → P (w'.working .run) →
      (f ()).meets (World.exec env) w' (Collected conn P start final)) :
    (step (CollectionStep.markSuccess conn.connectionId t) >>= f).meets (World.exec env) w
      (Collected conn P start final) := by
  refine collected_mark (s:=.markSuccess conn.connectionId t) rfl h ?_ fun _ => hf
  simp only [World.perform,World.setWorking_self]
  exact hP _ _ h.changed

theorem collected_idle {s : CollectionStep} (hperform : ∀ w, (World.perform env s w).2 = w)
    (hdisturbed : ∀ w, World.disturbed env s w = w) (h : InRun conn.connectionId start w)
    (hP : P (w.working .run)) {f : s.Ans → Collection α}
    (hf : ∀ a w', InRun conn.connectionId start w' → P (w'.working .run) →
      (f a).meets (World.exec env) w' (Collected conn P start final)) :
    (step s >>= f).meets (World.exec env) w (Collected conn P start final) := by
  refine Script.meets_bind (R:=fun _ u => u = w.tick) (meets_idle (hperform w) (hdisturbed w)
    fun _ => rfl) ?_ ?_
  · rintro a u rfl
    exact hf a _ h.tick hP
  · rintro e u rfl
    exact collected_error h.tick

end

section
variable {env : Surroundings} {conn : Connection} {start w : World} {t : Timestamp}
  (hrow : (start.committed.connections.find? conn.connectionId).isSome)

include hrow

theorem Changed.marked_markFailure {db : Database} (h : Changed conn.connectionId start.committed db)
    (now : Timestamp) (error : String) (status : ConnectionStatus) :
    Marked conn.connectionId t
      (ConnectionRepository.markFailure now conn.connectionId error status db) :=
  WzonePortal.marked_markFailure (by rw [h.exists_]; exact hrow) now t error status

theorem Changed.marked_markSuccess {db : Database} (h : Changed conn.connectionId start.committed db)
    (now : Timestamp) :
    Marked conn.connectionId t (ConnectionRepository.markSuccess now conn.connectionId t db) :=
  WzonePortal.marked_markSuccess (by rw [h.exists_]; exact hrow) now t

theorem meets_signInFailed (h : InRun conn.connectionId start w) (e : Raised) :
    (signInFailed conn.connectionId e).meets (World.exec env) w
      (Collected conn (Marked conn.connectionId t) start fun _ => True) := by
  have hP := fun now db (hdb : Changed conn.connectionId start.committed db) error status =>
    Changed.marked_markFailure (t := t) hrow hdb now error status
  cases e with
  | authentication message =>
    refine collected_markFailure h _ _ (fun now db hdb => hP now db hdb _ _) fun w' hw' hmarked => ?_
    exact collected_idle (s:=.log .run) (fun _ => rfl) (fun _ => rfl) hw' hmarked
      fun _ u hu hmarked => collected_pure hu fun _ => hmarked
  | permission message =>
    exact collected_markFailure h _ _ (fun now db hdb => hP now db hdb _ _)
      fun w' hw' hmarked => collected_pure hw' fun _ => hmarked
  | portal typeName message =>
    exact collected_markFailure h _ _ (fun now db hdb => hP now db hdb _ _)
      fun w' hw' hmarked => collected_pure hw' fun _ => hmarked
  | other typeName text => exact Script.meets_throw (collected_error h)

theorem meets_conclude (h : InRun conn.connectionId start w) (counts : UpsertResult) :
    (conclude conn.connectionId t counts).meets (World.exec env) w
      (Collected conn (Marked conn.connectionId t) start fun _ => True) := by
  refine collected_then (s:=.log .run) rfl h fun _ w₁ h₁ => ?_
  refine collected_then (s:=.getOutcomes) trivial h₁ fun outcomes w₂ h₂ => ?_
  split
  · exact collected_markFailure h₂ _ _ (fun now db hdb => hdb.marked_markFailure hrow now _ _)
      fun w' hw' hmarked => collected_pure hw' fun _ => hmarked
  · exact collected_markSuccess h₂ (fun now db hdb => hdb.marked_markSuccess hrow now)
      fun w' hw' hmarked => collected_pure hw' fun _ => hmarked

/-- An early end of the listing is marked; a complete one leaves that to the conclusion. -/
theorem meets_storeMachines (batchSize : ℤ) (h : InRun conn.connectionId start w) :
    (storeMachines batchSize conn.connectionId t).meets (World.exec env) w
      (Collected conn (Marked conn.connectionId t) start fun stored => stored.isLeft) := by
  refine Script.meets_tryCatch (R:=Collected conn (Marked conn.connectionId t) start
    fun stored => stored.isLeft) ?_ ?_ ?_
  · refine collected_then (s:=.listVirtualMachines) trivial h fun listing w' hw' => ?_
    refine Script.meets_bind (R:=fun _ u => InRun conn.connectionId start u)
      ((issues_storeBatches batchSize conn t _ _ _ _).run (fun o u ho hu => hu.exec ho) hw') ?_ ?_
    · intro counts u hu
      refine collected_pure hu fun hleft => ?_
      cases hleft
    · exact fun e u hu => collected_error hu
  · exact fun a w' hw' => hw'
  · intro e w' hw'
    cases e with
    | authentication message =>
      exact collected_markFailure hw'.1 _ _ (fun now db hdb => hdb.marked_markFailure hrow now _ _)
        fun u hu hmarked => collected_pure hu fun _ => hmarked
    | permission message => exact Script.meets_throw (collected_error hw'.1)
    | portal typeName message => exact Script.meets_throw (collected_error hw'.1)
    | other typeName text => exact Script.meets_throw (collected_error hw'.1)

theorem meets_collect (batchSize : ℤ) (h : InRun conn.connectionId start w) :
    (collect batchSize conn).meets (World.exec env) w
      (Collected conn (Marked conn.connectionId (env.clock w.issued)) start fun _ => True) := by
  refine collected_answer (s:=.now) trivial h rfl fun w₁ h₁ => ?_
  refine collected_then (s:=.buildReader conn) rfl h₁ fun _ w₂ h₂ => ?_
  refine Script.meets_bind (R:=fun _ u => InRun conn.connectionId start u)
    (Script.meets_attempt (meets_inner rfl h₂)) ?_ fun e u hu => collected_error hu
  intro signedIn w₃ h₃
  cases signedIn with
  | error e => exact meets_signInFailed hrow h₃ e
  | ok u =>
    refine Script.meets_bind (R:=Collected conn (Marked conn.connectionId (env.clock w.issued))
      start fun stored => stored.isLeft) ?_ ?_ fun e u hu => collected_error hu.1
    · refine Script.meets_tryFinally (meets_storeMachines hrow batchSize h₃) fun x w₄ h₄ => ?_
      refine meets_idle rfl rfl fun y => ⟨h₄.1.tick,fun a ha hleft => ?_⟩
      cases y with
      | error e => cases ha
      | ok u => exact h₄.2 a ha hleft
    · intro stored w₅ h₅
      cases stored with
      | inl summary => exact collected_pure h₅.1 fun _ => h₅.2 _ rfl rfl
      | inr counts => exact meets_conclude hrow h₅.1 counts

end

/-- What a run of `c` that started in `start` has left behind, committed or not. -/
structure Ran (c : UUID) (start w : World) : Prop where
  running : w.running = start.running
  signIns : ∀ d, d ≠ c → w.signInsOf d = start.signInsOf d
  changed : Changed c start.committed w.committed
  atomic : w.runCommits = start.runCommits →
    w.committed.virtualMachines = start.committed.virtualMachines ∧
      w.committed.resourceIdentities = start.committed.resourceIdentities

theorem InRun.ran {c : UUID} {start w : World} (h : InRun c start w) : Ran c start w := by
  refine ⟨h.running,h.signIns,?_,fun _ => ?_⟩
  · rw [h.committed]
    exact .refl _ _
  · rw [h.committed]
    exact ⟨rfl,rfl⟩

/-- The recorder has committed the failure, and nothing else has happened. -/
structure Recorded (c : UUID) (message : String) (before w : World) : Prop where
  committed : ∃ now, w.committed =
    ConnectionRepository.markFailure now c message .collectionError before.committed
  running : w.running = before.running
  signIns : w.signIns = before.signIns
  commits : w.runCommits = before.runCommits

section
variable {env : Surroundings} {c : UUID} {start w u : World} {t : Timestamp} {message : String}

theorem Recorded.ran (h : Recorded c message w u) (hran : Ran c start w) : Ran c start u := by
  obtain ⟨now,hcommitted⟩ := h.committed
  refine ⟨h.running.trans hran.running,fun d hd => ?_,?_,fun hcommits => ?_⟩
  · rw [World.signInsOf,h.signIns]
    exact hran.signIns d hd
  · rw [hcommitted]
    exact hran.changed.trans (.modify _ _ _)
  · rw [hcommitted]
    exact hran.atomic (h.commits.symm.trans hcommits)

theorem Recorded.marked (h : Recorded c message w u) (hran : Ran c start w)
    (hrow : (start.committed.connections.find? c).isSome) : Marked c t u.committed := by
  obtain ⟨now,hcommitted⟩ := h.committed
  rw [hcommitted]
  exact marked_markFailure (by rw [hran.changed.exists_]; exact hrow) _ _ _ _

theorem meets_spared_then (henv : env.SparesRecorder) {s : CollectionStep}
    (hs : s.spared = true) {a : s.Ans} (ha : (World.perform env s w).1 = .ok a) {α : Type}
    {f : s.Ans → Collection α} {Q : Except Raised α → World → Prop}
    (h : (f a).meets (World.exec env) (World.perform env s w).2.tick Q) :
    (step s >>= f).meets (World.exec env) w Q := by
  refine Script.meets_bind (R:=fun x u => x = .ok a ∧ u = (World.perform env s w).2.tick)
    (meets_spared henv hs ⟨ha,rfl⟩) ?_ ?_
  · rintro b u ⟨hb,rfl⟩
    cases hb
    exact h
  · rintro e u ⟨he,_⟩
    cases he

/-- The recorder's session is open with the working copy `db`. -/
structure Recording (before : World) (db : Database) (w : World) : Prop where
  working : w.working .recorder = db
  committed : w.committed = before.committed
  running : w.running = before.running
  signIns : w.signIns = before.signIns
  commits : w.runCommits = before.runCommits

theorem meets_record (henv : env.SparesRecorder) (h : Recording w w.committed u) :
    (do
      step (CollectionStep.buildCipher .recorder)
      step (CollectionStep.markFailure .recorder c message .collectionError)
      step (CollectionStep.commit .recorder) : Collection Unit).meets (World.exec env) u
        fun x u => x = .ok () ∧ Recorded c message w u := by
  refine meets_spared_then henv (s:=.buildCipher .recorder) rfl rfl ?_
  refine meets_spared_then henv (s:=.markFailure .recorder c message .collectionError) rfl rfl ?_
  refine meets_spared henv (s:=.commit .recorder) rfl ?_
  simp only [World.perform,World.tick,World.setWorking_self,h.working]
  exact ⟨trivial,⟨⟨_,rfl⟩,h.running,h.signIns,h.commits⟩⟩

theorem meets_markUnexpectedFailure (henv : env.SparesRecorder) (hcommitted : u.committed = w.committed)
    (hrunning : u.running = w.running) (hsignIns : u.signIns = w.signIns)
    (hcommits : u.runCommits = w.runCommits) :
    (markUnexpectedFailure c message).meets (World.exec env) u fun x u =>
      x = .ok () ∧ Recorded c message w u := by
  refine Script.meets_tryCatch (R:=fun x u => x = .ok () ∧ Recorded c message w u) ?_
    (fun _ _ hu => hu) ?_
  · refine meets_spared_then henv (s:=.openSession .recorder) rfl rfl ?_
    have hopen : Recording w w.committed
        (World.perform env (.openSession .recorder) u).2.tick :=
      ⟨by simp [World.perform,World.tick,hcommitted],hcommitted,hrunning,hsignIns,hcommits⟩
    refine Script.meets_tryFinally (meets_record henv hopen) ?_
    rintro _ v ⟨rfl,hv⟩
    exact meets_spared henv (s:=.closeSession .recorder) rfl
      ⟨rfl,hv.committed,hv.running,hv.signIns,hv.commits⟩
  · rintro e v ⟨he,_⟩
    cases he

theorem meets_unexpected (henv : env.SparesRecorder) (maskText : String → String)
    (secrets : List String) (e : Raised) :
    (unexpected maskText c secrets e).meets (World.exec env) w fun x u =>
      x = .ok () ∧ Recorded c (unexpectedMessage maskText secrets e) w u := by
  refine meets_spared_then henv (s:=.rollback .run) rfl rfl ?_
  refine meets_spared_then henv (s:=.log .recorder) rfl rfl ?_
  exact meets_markUnexpectedFailure henv rfl rfl rfl rfl

/-- The transaction of a run, whatever its end: what the collection has put into the working
copy is committed if nothing is raised. -/
theorem meets_collectAndCommit {conn : Connection} {batchSize : ℤ} {P : Database → Prop}
    (h : (collect batchSize conn).meets (World.exec env) w
      (Collected conn P start fun _ => True)) :
    (collectAndCommit batchSize conn).meets (World.exec env) w fun x u =>
      Ran conn.connectionId start u ∧ (x = .ok () → P u.committed) := by
  refine Script.meets_bind h ?_ ?_
  · intro summary w₁ h₁
    have hP := h₁.2 summary rfl trivial
    refine Script.meets_bind (R:=fun x u => Ran conn.connectionId start u ∧
      (x = .ok () → P u.committed)) (Script.meets_perform ?_) ?_ ?_
    · simp only [World.exec]
      split
      · refine ⟨h₁.1.tick.ran,fun hok => ?_⟩
        cases hok
      · refine ⟨⟨h₁.1.running,h₁.1.signIns,h₁.1.changed,fun hcommits => ?_⟩,fun _ => hP⟩
        have hone : w₁.runCommits + 1 = start.runCommits := hcommits
        rw [h₁.1.commits] at hone
        omega
    · rintro _ w₂ ⟨hran,hok⟩
      exact meets_idle rfl rfl fun _ =>
        ⟨⟨hran.running,hran.signIns,hran.changed,hran.atomic⟩,fun _ => hok rfl⟩
    · rintro e w₂ ⟨hran,_⟩
      refine ⟨hran,fun hok => ?_⟩
      cases hok
  · intro e w₁ h₁
    refine ⟨h₁.1.ran,fun hok => ?_⟩
    cases hok

theorem InRun.opened (c : UUID) (start : World) :
    InRun c start (start.setWorking .run start.committed) := by
  refine ⟨rfl,rfl,rfl,fun _ _ => rfl,?_⟩
  rw [World.setWorking_self]
  exact .refl _ _

theorem loadWithPassword_eq_ok {decrypt : String → Except Raised String} {db : Database}
    {found : Option Connection}
    (h : ConnectionRepository.loadWithPassword decrypt c db = .ok found) :
    found.isSome = (db.connections.find? c).isSome ∧ ∀ conn ∈ found, conn.connectionId = c := by
  unfold ConnectionRepository.loadWithPassword at h
  split at h
  · rename_i hnone
    cases h
    exact ⟨by rw [hnone]; rfl,fun conn hconn => by cases hconn⟩
  · rename_i row hrow
    have hid : row.connectionId = c := Table.find?_key hrow
    split at h
    · cases h
      refine ⟨by rw [hrow]; rfl,fun conn hconn => ?_⟩
      cases hconn
      exact hid
    · cases h

theorem meets_load (hrow : (start.committed.connections.find? c).isSome) (h : InRun c start w) :
    (Script.attempt (step (CollectionStep.loadWithPassword c) : Collection (Option Connection))).meets
      (World.exec env) w fun x u => InRun c start u ∧ u.issued = w.issued+1 ∧
        ∃ answer, x = .ok answer ∧
          ∀ found, answer = .ok found → ∃ conn, found = some conn ∧ conn.connectionId = c := by
  refine Script.meets_attempt (Script.meets_perform ?_)
  simp only [World.exec]
  split
  · refine ⟨h.tick,rfl,_,rfl,fun found hfound => ?_⟩
    cases hfound
  · refine ⟨h.tick,rfl,_,rfl,fun found hfound => ?_⟩
    obtain ⟨hsome,hid⟩ := loadWithPassword_eq_ok hfound
    rw [h.changed.exists_,hrow] at hsome
    obtain ⟨conn,rfl⟩ := Option.isSome_iff_exists.mp hsome
    exact ⟨conn,rfl,hid conn rfl⟩

theorem meets_collectOnce (henv : env.SparesRecorder) (batchSize : ℤ) (maskText : String → String)
    (hrow : (start.committed.connections.find? c).isSome) :
    (collectOnce batchSize maskText c).meets (World.exec env) start fun x u =>
      Ran c start u ∧ (env.fault start.issued (.openSession .run) = none → x = .ok ()) ∧
        (x = .ok () → Marked c (env.clock (start.issued+2)) u.committed) := by
  refine Script.meets_bind (R:=fun x u =>
    (x = .ok () ∧ u = (start.setWorking .run start.committed).tick) ∨
      (env.fault start.issued (.openSession .run) ≠ none ∧ (∃ e, x = .error e) ∧ u = start.tick))
    (Script.meets_perform ?_) ?_ ?_
  · simp only [World.exec]
    split
    · rename_i e he
      exact .inr ⟨by rw [he]; exact Option.some_ne_none e,⟨e,rfl⟩,rfl⟩
    · exact .inl ⟨rfl,rfl⟩
  · rintro _ u (⟨_,rfl⟩ | ⟨_,⟨e,he⟩,_⟩)
    · refine Script.meets_tryFinally (R:=fun x u => x = .ok () ∧ Ran c start u ∧
        Marked c (env.clock (start.issued+2)) u.committed) ?_ ?_
      · refine Script.meets_bind (meets_load hrow (InRun.opened c start).tick) ?_ ?_
        · rintro answer w₂ ⟨h₂,hissued,x,hx,hfound⟩
          cases hx
          have hrecord : ∀ (secrets : List String) (e : Raised) (w : World), Ran c start w →
              (unexpected maskText c secrets e).meets (World.exec env) w fun x u =>
                x = .ok () ∧ Ran c start u ∧
                  Marked c (env.clock (start.issued+2)) u.committed := by
            intro secrets e w hran
            refine Script.meets_mono (meets_unexpected henv maskText secrets e) ?_
            rintro _ u ⟨hok,hrecorded⟩
            exact ⟨hok,hrecorded.ran hran,hrecorded.marked hran hrow⟩
          cases answer with
          | error e => exact hrecord [] e w₂ h₂.ran
          | ok found =>
            obtain ⟨conn,rfl,rfl⟩ := hfound found rfl
            refine Script.meets_tryCatch (meets_collectAndCommit (meets_collect hrow batchSize h₂)) ?_ ?_
            · rintro _ w₃ ⟨hran,hmarked⟩
              have hm := hmarked rfl
              rw [hissued] at hm
              exact ⟨rfl,hran,hm⟩
            · exact fun e w₃ h₃ => hrecord _ e w₃ h₃.1
        · rintro e w₂ ⟨_,_,answer,hanswer,_⟩
          cases hanswer
      · rintro x u ⟨rfl,hran,hmarked⟩
        refine meets_spared henv (s:=.closeSession .run) rfl ?_
        exact ⟨⟨hran.running,hran.signIns,hran.changed,hran.atomic⟩,fun _ => rfl,fun _ => hmarked⟩
    · cases he
  · rintro e u (⟨he,_⟩ | ⟨hfault,_,rfl⟩)
    · cases he
    · refine ⟨⟨rfl,fun _ _ => rfl,.refl _ _,fun _ => ⟨rfl,rfl⟩⟩,fun hnone => absurd hnone hfault,
        fun hok => ?_⟩
      cases hok

end

/-- Whatever raises in a run, apart from ending a session and from the final record: the run
returns unless its session could not be opened; when it returns, the connection has an error or
the time of this run as its last success; without the run's commit no machine has changed; and
no machine row is gone. -/
theorem run_leaves_marker (env : Surroundings) (henv : env.SparesRecorder) (batchSize : ℤ)
    (maskText : String → String) (c : UUID) (running : Finset UUID) (db : Database)
    (hrow : (db.connections.find? c).isSome) :
    let r := (collectOnce batchSize maskText c).run (World.exec env) (World.fresh running db)
    (env.fault 0 (.openSession .run) = none → r.1 = .ok ()) ∧
    (r.1 = .ok () → ∃ row, r.2.committed.connections.find? c = some row ∧
      (row.lastError ≠ none ∨ row.lastSuccessAt = some (env.clock 2))) ∧
    (r.2.runCommits = 0 → r.2.committed.virtualMachines = db.virtualMachines ∧
      r.2.committed.resourceIdentities = db.resourceIdentities) ∧
    (∀ vm ∈ db.virtualMachines.rows, ∃ vm' ∈ r.2.committed.virtualMachines.rows,
      vm'.resourceId = vm.resourceId) := by
  have h : (collectOnce batchSize maskText c).meets (World.exec env) (World.fresh running db) _ :=
    meets_collectOnce henv batchSize maskText hrow
  exact ⟨h.2.1,h.2.2,h.1.atomic,h.1.changed.kept⟩

/-- Nothing raises, and the hypervisor has no machines. -/
def calm : Surroundings where
  fault := fun _ _ => none
  written := fun _ => 0
  clock := fun n => n
  uuid4 := fun m n => BitVec.ofNat 128 (1000*m+n+100)
  decrypt := .ok
  refusal := fun _ => .other "IntegrityError" "refused"
  listing := ⟨[],none⟩
  outcomes := []

def commitFails : Surroundings :=
  { calm with fault := fun _ s =>
      if s = .commit .run then some (.other "OperationalError" "connection lost") else none }

theorem commitFails_sparesRecorder : commitFails.SparesRecorder := by
  intro n s hs
  refine if_neg ?_
  rintro rfl
  cases hs

theorem run_leaves_marker_commitFails :
    let r := (collectOnce 500 id 7).run (World.exec commitFails) (World.fresh {7} emptyStore)
    r.1 = .ok () ∧ ∃ row, r.2.committed.connections.find? 7 = some row ∧
      (row.lastError ≠ none ∨ row.lastSuccessAt = some (commitFails.clock 2)) := by
  have h := run_leaves_marker commitFails commitFails_sparesRecorder 500 id 7 {7} emptyStore rfl
  exact ⟨h.1 rfl,h.2.1 (h.1 rfl)⟩

end WzonePortal
