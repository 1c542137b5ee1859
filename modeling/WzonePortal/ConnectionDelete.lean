import WzonePortal.AuditFailure
import WzonePortal.PortalHistory

/-! Deleting a connection. The guard counts active machines while the foreign key counts
all of them; every row that collections write is active, so the two agree in every state
that the portal reaches, and identity rows never outlive their machine. -/
namespace WzonePortal

open VirtualMachineRepository

/-- What the guard relies on. -/
structure GuardInvariant (db : Database) : Prop where
  store : StoreInvariant db
  active : ∀ r ∈ db.virtualMachines.rows, r.lifecycle = .active

section
variable {dbms : Dbms} {env : Env} {ctx : Context} {db db' : Database} {scope : AccessScope}
  {c : UUID} {conn : ConnectionRow}

theorem write_keeps_machines {w : Write} (h : w.apply dbms db = .ok db') :
    db'.virtualMachines = db.virtualMachines ∧ db'.resourceIdentities = db.resourceIdentities := by
  cases w with
  | insertUser row =>
    obtain ⟨_,_,_,rfl⟩ := Write.apply_insertUser h
    exact ⟨rfl,rfl⟩
  | patchUser userId p =>
    obtain ⟨_,rfl⟩ := Write.apply_patchUser h
    exact ⟨rfl,rfl⟩
  | replaceScopes userId ids grantedBy at_ =>
    obtain ⟨_,_,_,rfl⟩ := Write.apply_replaceScopes h
    exact ⟨rfl,rfl⟩
  | insertAudit row =>
    obtain ⟨_,rfl⟩ := Write.apply_insertAudit h
    exact ⟨rfl,rfl⟩
  | insertConnection row =>
    obtain ⟨_,_,rfl⟩ := Write.apply_insertConnection h
    exact ⟨rfl,rfl⟩
  | deleteConnection connectionId =>
    cases Write.apply_deleteConnection h
    exact ⟨rfl,rfl⟩

theorem applyAll_keeps_machines {ws : List Write} (h : Write.applyAll dbms ws db = .ok db') :
    db'.virtualMachines = db.virtualMachines ∧ db'.resourceIdentities = db.resourceIdentities := by
  induction ws generalizing db with
  | nil =>
    cases h
    exact ⟨rfl,rfl⟩
  | cons w ws ih =>
    obtain ⟨mid,hw,hrest⟩ := Write.applyAll_cons h
    have hone := write_keeps_machines hw
    have hall := ih hrest
    exact ⟨hall.1.trans hone.1,hall.2.trans hone.2⟩

theorem VirtualMachineRepository.StoreInvariant.congr (h : StoreInvariant db)
    (hvms : db'.virtualMachines = db.virtualMachines)
    (hids : db'.resourceIdentities = db.resourceIdentities) : StoreInvariant db' := by
  refine ⟨?_,?_,?_⟩
  · rw [hvms]
    exact h.unique
  · rw [hvms,hids]
    exact h.identities
  · rw [hvms]
    exact h.storable

theorem GuardInvariant.congr (h : GuardInvariant db)
    (hvms : db'.virtualMachines = db.virtualMachines)
    (hids : db'.resourceIdentities = db.resourceIdentities) : GuardInvariant db' := by
  refine ⟨h.store.congr hvms hids,?_⟩
  rw [hvms]
  exact h.active

theorem GuardInvariant.writes (h : GuardInvariant db) {ws : List Write}
    (hw : Write.applyAll dbms ws db = .ok db') (row : AuditEventRow) :
    GuardInvariant (db'.addAudit row) := by
  have hkeep := applyAll_keeps_machines hw
  exact h.congr hkeep.1 hkeep.2

theorem GuardInvariant.upsertOne {uuid4 : ℕ → UUID} {t : Timestamp} {vm : VirtualMachine}
    {s s' : UpsertState} (h : GuardInvariant s.db)
    (hs : upsertOne uuid4 vm.connectionId t s vm = .ok s') : GuardInvariant s'.db := by
  refine ⟨(upsertOne_ok h.store hs).1.invariant,?_⟩
  by_cases hm : ∃ r ∈ s.db.virtualMachines.rows, r.key = vm.key
  · obtain ⟨r,hr,hk⟩ := hm
    rw [(upsertOne_rows_of_mem h.store hr hk hs).1,List.forall_mem_map]
    intro q hq
    have hactive := h.active q hq
    split
    · exact hactive
    · exact hactive
  · rw [upsertOne_rows_of_not_mem h.store (fun r hr hk => hm ⟨r,hr,hk⟩) hs,List.forall_mem_append]
    refine ⟨h.active,fun r hr => ?_⟩
    rw [List.mem_singleton.mp hr]
    rfl

theorem GuardInvariant.upsertAll {uuid4 : ℕ → UUID} {t : Timestamp} {vms : List VirtualMachine}
    {s s' : UpsertState} (h : GuardInvariant s.db) (hc : ∀ vm ∈ vms, vm.connectionId = c)
    (hs : upsertAll uuid4 c t vms s = .ok s') : GuardInvariant s'.db := by
  induction vms generalizing s with
  | nil =>
    cases hs
    exact h
  | cons vm vms ih =>
    obtain ⟨mid,hone,hrest⟩ := bind_eq_ok.mp hs
    rw [← hc vm List.mem_cons_self] at hone
    exact ih (h.upsertOne hone) (fun v hv => hc v (List.mem_cons_of_mem _ hv)) hrest

theorem GuardInvariant.run (h : GuardInvariant db) {e : PortalEvent} (hc : e.Carried) :
    GuardInvariant (e.run dbms env db) := by
  cases e with
  | request call =>
    exact call.serve_cases GuardInvariant h fun d w _ hw row _ => h.writes hw row
  | login attempt =>
    exact attempt.serve_cases GuardInvariant h fun row w _ hw event _ => h.writes hw event
  | collect call =>
    refine collect_cases GuardInvariant h fun result db' hrun => ?_
    obtain ⟨s,hs,he⟩ := bind_eq_ok.mp hrun
    cases he
    exact h.upsertAll hc hs

theorem GuardInvariant.of_empty (hvms : db.virtualMachines.rows = [])
    (hids : db.resourceIdentities.rows = []) : GuardInvariant db :=
  ⟨StoreInvariant.of_empty hvms hids,by simp [hvms]⟩

/-- The guard counts exactly the rows that the foreign key sees. -/
theorem GuardInvariant.count (h : GuardInvariant db) (c : UUID) :
    db.countActiveVms c = 0 ↔ ∀ r ∈ db.virtualMachines.rows, r.connectionId ≠ c := by
  rw [Database.countActiveVms,List.length_eq_zero_iff,List.filter_eq_nil_iff]
  constructor
  · intro hnone r hr hc
    exact hnone r hr (by simp [hc,h.active r hr])
  · intro hnone r hr
    simp [hnone r hr]

theorem GuardInvariant.identity (h : GuardInvariant db)
    (hc : ∀ r ∈ db.virtualMachines.rows, r.connectionId ≠ c) :
    ∀ i ∈ db.resourceIdentities.rows, i.connectionId ≠ c := by
  intro i hi
  obtain ⟨r,hr,rfl⟩ := (h.store.identities i).mp hi
  exact hc r hr

def deleteRow (env : Env) (ctx : Context) (scope : AccessScope) (conn : ConnectionRow) :
    AuditEventRow :=
  AuditRepository.eventRow ctx.now
    (ConnectionService.connectionEvent env ctx scope .connectionDelete conn.connectionId
      [("display_name",.text conn.displayName),("impact",.counts [("virtual_machine",0)])])

/-- The database without a connection and the scopes that refer to it. -/
def Database.withoutConnection (db : Database) (c : UUID) : Database :=
  { db with
    connections := db.connections.deleteWhere fun r => r.connectionId = c
    userConnectionScopes := db.userConnectionScopes.deleteWhere fun r => r.connectionId = c }

theorem serve_delete_guard (hperm : scope.require .connectionManage = .ok ())
    (hconn : db.connections.find? c = some conn) :
    serve dbms (ConnectionService.delete env ctx scope c) db =
      finish dbms (Script.require (db.countActiveVms c = 0)
          (ConnectionService.hasVmsError (db.countActiveVms c)) >>= fun _ =>
        ConnectionRepository.remove c >>= fun _ =>
        AuditRepository.record ctx.now
          (ConnectionService.connectionEvent env ctx scope .connectionDelete c
            [("display_name",.text conn.displayName),
              ("impact",.counts [("virtual_machine",db.countActiveVms c)])]))
        (Session.fresh db) := by
  have hget : (ask (.connectionById c)).run (Session.exec dbms) (Session.fresh db) =
      (.ok (some conn),Session.fresh db) := by
    rw [Session.fresh,Session.run_ask]
    simp only [Query.eval,hconn]
  have hcount : (ask (.countActiveVms c)).run (Session.exec dbms) (Session.fresh db) =
      (.ok (db.countActiveVms c),Session.fresh db) := Session.run_ask _
  rw [serve_eq_finish,ConnectionService.delete,hperm,
    finish_bind_of_ok (Session.run_liftExcept (.ok ()) _),ConnectionRepository.get,
    finish_bind_of_ok hget]
  exact finish_bind_of_ok hcount _

theorem serve_delete_refused (hperm : scope.require .connectionManage = .ok ())
    (hconn : db.connections.find? c = some conn) (hcount : db.countActiveVms c ≠ 0) :
    serve dbms (ConnectionService.delete env ctx scope c) db =
      (.error (ConnectionService.hasVmsError (db.countActiveVms c)),db) := by
  have hrun : (Script.require (db.countActiveVms c = 0)
      (ConnectionService.hasVmsError (db.countActiveVms c))).run (Session.exec dbms)
      (Session.fresh db) =
        (.error (ConnectionService.hasVmsError (db.countActiveVms c)),Session.fresh db) := by
    rw [Script.run_require,if_neg (by simpa using hcount)]
  rw [serve_delete_guard hperm hconn]
  exact finish_bind_of_error hrun _

/-- Without machines the row is deleted, and the end of the request decides over all of it. -/
theorem serve_delete_accepted (hperm : scope.require .connectionManage = .ok ())
    (hconn : db.connections.find? c = some conn) (hcount : db.countActiveVms c = 0)
    (hfree : ∀ r ∈ db.virtualMachines.rows, r.connectionId ≠ c) :
    serve dbms (ConnectionService.delete env ctx scope c) db =
      if dbms.acceptsAudit (deleteRow env ctx scope conn) then
        (.ok (),(db.withoutConnection c).addAudit (deleteRow env ctx scope conn))
      else (.error .pendingRollback,db) := by
  have hkey : conn.connectionId = c := Table.find?_key hconn
  have hget : (ask (.connectionById c)).run (Session.exec dbms) ⟨db,db,false⟩ =
      (.ok (some conn),⟨db,db,false⟩) := by
    rw [Session.run_ask]
    simp only [Query.eval,hconn]
  have hwrite : (Write.deleteConnection c).apply dbms db = .ok (db.withoutConnection c) := by
    have hnone : (db.virtualMachines.rows.any fun r => r.connectionId = c) = false := by
      rw [List.any_eq_false]
      intro r hr
      simpa using hfree r hr
    simp only [Write.apply,hnone,Bool.false_eq_true,if_false]
    rfl
  have hflush : (flush (.deleteConnection c)).run (Session.exec dbms) ⟨db,db,false⟩ =
      (.ok (),⟨db,db.withoutConnection c,false⟩) := by
    rw [Session.run_flush,hwrite]
  have hrow : AuditRepository.eventRow ctx.now
      (ConnectionService.connectionEvent env ctx scope .connectionDelete c
        [("display_name",.text conn.displayName),
          ("impact",.counts [("virtual_machine",db.countActiveVms c)])]) =
      deleteRow env ctx scope conn := by
    rw [hcount,deleteRow,hkey]
  have hrequire : (Script.require (db.countActiveVms c = 0)
      (ConnectionService.hasVmsError (db.countActiveVms c))).run (Session.exec dbms)
      (Session.fresh db) = (.ok (),⟨db,db,false⟩) := by
    rw [Script.run_require,if_pos (by simpa using hcount),Session.fresh]
  rw [serve_delete_guard hperm hconn,finish_bind_of_ok hrequire,ConnectionRepository.remove,
    bind_assoc,finish_bind_of_ok hget]
  simp only
  rw [finish_bind_of_ok hflush,finish,getDb,Script.run_tryCatch]
  rw [Script.run_bind_of_ok _ (run_record ctx.now _),hrow]
  by_cases ha : dbms.acceptsAudit (deleteRow env ctx scope conn) = true
  · simp only [ha,if_true]
    rfl
  · simp only [ha,if_false,Bool.false_eq_true]
    rfl

/-- The deletion of a connection as the guard means it: refused with machines, else complete, and
never stopped by a foreign key. -/
structure DeleteAgrees (dbms : Dbms) (env : Env) (ctx : Context) (scope : AccessScope)
    (conn : ConnectionRow) (db : Database) : Prop where
  guarded : (∃ r ∈ db.virtualMachines.rows, r.connectionId = conn.connectionId) →
    ∃ vmCount, 0 < vmCount ∧
      serve dbms (ConnectionService.delete env ctx scope conn.connectionId) db =
        (.error (ConnectionService.hasVmsError vmCount),db)
  deleted : (∀ r ∈ db.virtualMachines.rows, r.connectionId ≠ conn.connectionId) →
    serve dbms (ConnectionService.delete env ctx scope conn.connectionId) db = (.ok (),{ db with
      connections := db.connections.deleteWhere fun r => r.connectionId = conn.connectionId
      userConnectionScopes :=
        db.userConnectionScopes.deleteWhere fun r => r.connectionId = conn.connectionId
      auditEvents := db.auditEvents ++ [deleteRow env ctx scope conn] })
  identities : (∀ r ∈ db.virtualMachines.rows, r.connectionId ≠ conn.connectionId) →
    ∀ i ∈ db.resourceIdentities.rows, i.connectionId ≠ conn.connectionId
  foreignKeys : (serve dbms (ConnectionService.delete env ctx scope conn.connectionId) db).1 ≠
    .error .integrityError

/-- The guard holds, the identity rows are gone and no foreign key is in the way, whatever becomes
of the audit row; a refused one undoes the deletion. -/
theorem GuardInvariant.delete (h : GuardInvariant db)
    (hperm : scope.require .connectionManage = .ok ())
    (hconn : db.connections.find? conn.connectionId = some conn) :
    ((∃ r ∈ db.virtualMachines.rows, r.connectionId = conn.connectionId) ∨
      dbms.acceptsAudit (deleteRow env ctx scope conn) = true →
        DeleteAgrees dbms env ctx scope conn db) ∧
    ((∀ r ∈ db.virtualMachines.rows, r.connectionId ≠ conn.connectionId) →
      dbms.acceptsAudit (deleteRow env ctx scope conn) = false →
        serve dbms (ConnectionService.delete env ctx scope conn.connectionId) db =
          (.error .pendingRollback,db)) := by
  by_cases hcount : db.countActiveVms conn.connectionId = 0
  · have hfree := (h.count conn.connectionId).mp hcount
    have hserve := @serve_delete_accepted dbms env ctx db scope _ conn hperm hconn hcount hfree
    refine ⟨fun hor => ?_,fun _ ha => ?_⟩
    · have ha : dbms.acceptsAudit (deleteRow env ctx scope conn) = true :=
        hor.resolve_left fun ⟨r,hr,hc⟩ => hfree r hr hc
      rw [if_pos ha] at hserve
      exact {
        guarded := fun ⟨r,hr,hc⟩ => absurd hc (hfree r hr)
        deleted := fun _ => hserve
        identities := h.identity
        foreignKeys := by
          rw [hserve]
          intro he
          cases he }
    · rw [hserve,ha]
      rfl
  · have hserve := @serve_delete_refused dbms env ctx db scope _ conn hperm hconn hcount
    have hnot : ¬ ∀ r ∈ db.virtualMachines.rows, r.connectionId ≠ conn.connectionId :=
      fun hfree => hcount ((h.count conn.connectionId).mpr hfree)
    exact ⟨fun _ => {
        guarded := fun _ => ⟨_,Nat.pos_of_ne_zero hcount,hserve⟩
        deleted := fun hfree => absurd hfree hnot
        identities := h.identity
        foreignKeys := by
          rw [hserve]
          intro he
          cases he },
      fun hfree => absurd hfree hnot⟩

/-- In every state that a history reaches from a store without machines, deleting an existing
connection does what the guard means exactly when a machine refers to it or the server accepts the
audit row of the deletion; otherwise the row undoes the deletion. -/
theorem delete_guard_agrees_iff (dbms : Dbms) (env : Env) (start : Database)
    (hvms : start.virtualMachines.rows = []) (hids : start.resourceIdentities.rows = [])
    (events : List PortalEvent) (hcarried : ∀ e ∈ events, e.Carried) (db : Database)
    (hdb : db = portalAfter dbms env events start) (ctx : Context) (scope : AccessScope)
    (hperm : scope.require .connectionManage = .ok ()) (conn : ConnectionRow)
    (hconn : db.connections.find? conn.connectionId = some conn) :
    (DeleteAgrees dbms env ctx scope conn db ↔
      (∃ r ∈ db.virtualMachines.rows, r.connectionId = conn.connectionId) ∨
        dbms.acceptsAudit (deleteRow env ctx scope conn) = true) ∧
    ((∀ r ∈ db.virtualMachines.rows, r.connectionId ≠ conn.connectionId) →
      dbms.acceptsAudit (deleteRow env ctx scope conn) = false →
        serve dbms (ConnectionService.delete env ctx scope conn.connectionId) db =
          (.error .pendingRollback,db)) := by
  have hinv : GuardInvariant db := by
    rw [hdb]
    exact portal_invariant GuardInvariant (fun e he db h => h.run (hcarried e he))
      (.of_empty hvms hids)
  obtain ⟨hagrees,hundone⟩ := @GuardInvariant.delete dbms env ctx db scope conn hinv hperm hconn
  refine ⟨⟨fun h => ?_,hagrees⟩,hundone⟩
  by_contra hnot
  obtain ⟨hfree,ha⟩ := not_or.mp hnot
  have hfree' : ∀ r ∈ db.virtualMachines.rows, r.connectionId ≠ conn.connectionId :=
    fun r hr hc => hfree ⟨r,hr,hc⟩
  have hboth := (h.deleted hfree').symm.trans (hundone hfree' (Bool.not_eq_true _ ▸ ha))
  cases congrArg Prod.fst hboth

end

def rootScope : AccessScope := buildScope (UserRepository.toAuthenticated root) []

theorem collect_toolsStopped : ∃ db, portalAfter .lenient plainEnv [.collect toolsStopped]
    emptyStore = db ∧ db.connections = emptyStore.connections ∧
      ∃ r ∈ db.virtualMachines.rows, r.connectionId = 7 := by
  obtain ⟨result,db,hrun⟩ := run_emptyStore_isOk toolsStopped_carried (by decide) rfl rfl
    (by decide)
  have hu := (UpsertCall.run_ok (StoreInvariant.of_empty rfl rfl) toolsStopped_carried hrun).1
  obtain ⟨r,hr,hk⟩ := hu.covered (7,"vm-1") (by decide)
  refine ⟨db,?_,hu.connections,r,hr,congrArg Prod.fst hk⟩
  simp only [portalAfter,List.foldl_cons,List.foldl_nil,PortalEvent.run,hrun]

/-- The connection of the concrete runs, as it is stored. -/
def storedVc : ConnectionRow where
  connectionId := 7
  kind := .vcenter
  displayName := "vc"
  address := "vc.local"
  port := 443
  username := "reader"
  passwordEncrypted := "x"
  verifyTls := true
  protocol := .https
  authMethod := none
  sessionConfiguration := none
  status := .active
  createdAt := 0
  updatedAt := 0

theorem delete_guard_before_and_after_collection : ∃ db,
    portalAfter .lenient plainEnv [.collect toolsStopped] emptyStore = db ∧
    (serve .lenient (ConnectionService.delete plainEnv (contextOf 1 0 30) rootScope 7)
      emptyStore).1 = .ok () ∧
    ∃ vmCount, 0 < vmCount ∧
      serve .lenient (ConnectionService.delete plainEnv (contextOf 1 0 30) rootScope 7) db =
        (.error (ConnectionService.hasVmsError vmCount),db) := by
  obtain ⟨db,hdb,hconnections,hmachine⟩ := collect_toolsStopped
  have hbefore := (delete_guard_agrees_iff .lenient plainEnv emptyStore rfl rfl [] (by simp)
    emptyStore rfl (contextOf 1 0 30) rootScope rfl storedVc rfl).1.mpr (.inr rfl)
  have hafter := (delete_guard_agrees_iff .lenient plainEnv emptyStore rfl rfl
    [.collect toolsStopped] (by
      intro e he
      rw [List.mem_singleton.mp he]
      exact toolsStopped_carried) db hdb.symm (contextOf 1 0 30) rootScope rfl storedVc
    (by rw [hconnections]; rfl)).1.mpr (.inl hmachine)
  exact ⟨db,hdb,congrArg Prod.fst (hbefore.deleted (by decide)),hafter.guarded hmachine⟩

def unknownClient : Context := { contextOf 1 0 30 with clientIp := some "unknown" }

/-- The connection that the administrator creates is still there after he has deleted it, since
the server refuses his address. -/
theorem delete_undone_by_audit :
    let db := portalAfter strictInet plainEnv [.request (byRoot 20 (.createConnection
      ⟨"vc","10.0.0.9",443,"svc","pw",true,.vcenter,"https",none,none⟩))] rootDatabase
    ∃ conn, db.connections.rows = [conn] ∧ db.virtualMachines.rows = [] ∧
      serve strictInet (ConnectionService.delete plainEnv unknownClient rootScope
        conn.connectionId) db = (.error .pendingRollback,db) ∧
      ¬ DeleteAgrees strictInet plainEnv unknownClient rootScope conn db := by
  intro db
  have hinv : GuardInvariant db :=
    portal_invariant GuardInvariant (fun e he db h => h.run (by
      rw [List.mem_singleton.mp he]
      trivial)) (.of_empty rfl rfl)
  obtain ⟨conn,hrows⟩ : ∃ conn, db.connections.rows = [conn] := ⟨_,rfl⟩
  have hfree : ∀ r ∈ db.virtualMachines.rows, r.connectionId ≠ conn.connectionId := by
    simp [show db.virtualMachines.rows = [] from rfl]
  have hconn : db.connections.find? conn.connectionId = some conn :=
    Table.find?_of_mem (by simp [hrows])
  have hundone := (@GuardInvariant.delete strictInet plainEnv unknownClient db rootScope conn hinv
    rfl hconn).2 hfree rfl
  refine ⟨conn,hrows,rfl,hundone,fun h => ?_⟩
  have hboth := (h.deleted hfree).symm.trans hundone
  cases congrArg Prod.fst hboth

end WzonePortal
