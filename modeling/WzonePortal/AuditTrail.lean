import WzonePortal.AuditedRequests

/-! The audit log under overlapping sessions. The table grows by one row at every commit that
changes anything, the row names what was changed, and the status of every account is the one
that the rows about it tell of. -/
namespace WzonePortal

open ReadCommitted

namespace AuditEventRow

/-- How the row of a user may differ after the act that an audit row tells of. -/
inductive Tells (row : AuditEventRow) (userId : UUID) (before : Option UserRow) :
    Option UserRow → Prop
  | same : Tells row userId before before
  | changed (q q' : UserRow) (names : row.Names userId) (found : before = some q)
      (username : q'.username = q.username)
      (status : q'.status = q.status ∨ row.action.status? = some q'.status)
      (role : q'.role ≠ q.role → row.action = .userApprove ∨ row.action = .userRoleChange)
      (passwordHash : q'.passwordHash ≠ q.passwordHash → row.action = .login ∨
        row.action = .passwordChange ∨ row.action = .userPasswordReset) :
      Tells row userId before (some q')
  | registered (q' : UserRow) (action : row.action = .userRegister)
      (actor : row.actor = some q'.username) (fresh : before = none)
      (status : q'.status = .pending) (role : q'.role = .viewer) :
      Tells row userId before (some q')

section
variable {row : AuditEventRow} {userId : UUID} {a b c : Option UserRow}

theorem Tells.trans (h : row.Tells userId a b) (h' : row.Tells userId b c) :
    row.Tells userId a c := by
  cases h' with
  | same => exact h
  | registered q' action actor fresh status role =>
    subst fresh
    cases h
    exact .registered q' action actor rfl status role
  | changed q q' names found username status role hash =>
    subst found
    cases h with
    | same => exact .changed q q' names rfl username status role hash
    | changed p _ names' found' username' status' role' hash' =>
      refine .changed p q' names found' (username.trans username') ?_ (fun hr => ?_) fun hh => ?_
      · rcases status with hs | hs
        · rw [hs]
          exact status'
        · exact .inr hs
      · by_cases hq : q'.role = q.role
        · exact role' (by rwa [← hq])
        · exact role hq
      · by_cases hq : q'.passwordHash = q.passwordHash
        · exact hash' (by rwa [← hq])
        · exact hash hq
    | registered _ action actor fresh status' role' =>
      refine .registered q' action (by rw [actor,username]) fresh ?_ ?_
      · rcases status with hs | hs
        · rw [hs,status']
        · rw [action] at hs
          cases hs
      · by_contra hr
        have hne : q'.role ≠ q.role := by rwa [role']
        rcases role hne with ha | ha <;> rw [action] at ha <;> cases ha

theorem Tells.persists (h : row.Tells userId a b) {q : UserRow} (ha : a = some q) :
    ∃ q', b = some q' ∧ q'.username = q.username := by
  cases h with
  | same => exact ⟨q,ha,rfl⟩
  | changed p q' names found username status role hash =>
    obtain rfl := Option.some.inj (found.symm.trans ha)
    exact ⟨q',rfl,username⟩
  | registered q' action actor fresh status role => rw [ha] at fresh; cases fresh

end
end AuditEventRow

section
variable {dbms : Dbms} {db db' : Database} {row : AuditEventRow} {w : Write} {ws : List Write}

open AuditEventRow

theorem tells_apply (hcovers : row.Covers w) (h : w.apply dbms db = .ok db') (u : UUID) :
    row.Tells u (db.users.find? u) (db'.users.find? u) := by
  cases w with
  | insertUser r =>
    obtain ⟨haction,hactor,hstatus,hrole⟩ := hcovers
    obtain ⟨_,users,hu,rfl⟩ := Write.apply_insertUser h
    simp only [Table.find?_insert hu]
    split
    · rename_i he
      have hnone : db.users.find? u = none := by
        rw [← he,Table.find?_eq_none]
        intro q hq hk
        exact (Table.insert_eq_some.mp hu).1 (List.mem_map.mpr ⟨q,hq,hk⟩)
      exact .registered r haction hactor hnone hstatus hrole
    · exact .same
  | patchUser v p =>
    obtain ⟨hname,hpermits⟩ := hcovers
    rw [(Write.apply_patchUser h).2,find?_patchUser]
    by_cases hu : u = v
    · subst hu
      rw [if_pos rfl]
      cases hq : db.users.find? u with
      | none => exact .same
      | some q =>
        refine .changed q (p.apply q) hname rfl rfl ?_ (fun hr => hpermits.role fun hn => hr ?_)
          fun hh => hpermits.passwordHash fun hn => hh ?_
        · rcases hpermits.status with hs | hs
          · exact .inl (by simp [hs])
          · cases hp : p.status with
            | none => exact .inl (by simp [hp])
            | some s => exact .inr (by rw [← hs,hp,UserPatch.apply_status,hp]; rfl)
        · simp [hn]
        · simp [UserPatch.apply,hn]
    · rw [if_neg hu]
      exact .same
  | replaceScopes v ids grantedBy at_ =>
    rw [users_replaceScopes h]
    exact .same
  | insertAudit r => exact hcovers.elim
  | insertConnection r =>
    obtain ⟨_,_,rfl⟩ := Write.apply_insertConnection h
    exact .same
  | deleteConnection c =>
    rw [Write.apply_deleteConnection h]
    exact .same

theorem tells_applyAll (hcovers : ∀ w ∈ ws, row.Covers w)
    (h : Write.applyAll dbms ws db = .ok db') (u : UUID) :
    row.Tells u (db.users.find? u) (db'.users.find? u) := by
  induction ws generalizing db with
  | nil =>
    cases h
    exact .same
  | cons w ws ih =>
    obtain ⟨mid,hw,hrest⟩ := Write.applyAll_cons h
    exact (tells_apply (hcovers w List.mem_cons_self) hw u).trans
      (ih (fun x hx => hcovers x (List.mem_cons_of_mem _ hx)) hrest)

/-- The status that one of the statements sets is the status after all of them. -/
theorem status_applyAll (hcovers : ∀ w ∈ ws, row.Covers w)
    (h : Write.applyAll dbms ws db = .ok db') {u : UUID} {s : UserStatus}
    (hs : row.action.status? = some s) (hset : ∃ p, .patchUser u p ∈ ws ∧ p.status = some s)
    {q' : UserRow} (hq : db'.users.find? u = some q') : q'.status = s := by
  induction ws generalizing db with
  | nil => simp at hset
  | cons w ws ih =>
    obtain ⟨mid,hw,hrest⟩ := Write.applyAll_cons h
    have hlater := fun x hx => hcovers x (List.mem_cons_of_mem w hx)
    obtain ⟨p,hp,hps⟩ := hset
    rcases List.mem_cons.mp hp with rfl | hp
    · have htells := tells_applyAll hlater hrest u
      rw [(Write.apply_patchUser hw).2,find?_patchUser,if_pos rfl,hq] at htells
      generalize hmid : (db.users.find? u).map p.apply = m at htells
      cases htells with
      | same =>
        obtain ⟨q,_,rfl⟩ := Option.map_eq_some_iff.mp hmid
        simp [hps]
      | changed q _ names found username status role hash =>
        obtain ⟨r,_,rfl⟩ := Option.map_eq_some_iff.mp (hmid.trans found)
        rcases status with hst | hst
        · simpa [hps] using hst
        · exact Option.some.inj (hst.symm.trans hs)
      | registered _ action actor fresh status role =>
        rw [action] at hs
        cases hs
    · exact ih hlater hrest ⟨p,hp,hps⟩

theorem insertUser_fresh {r : UserRow} (h : (Write.insertUser r).apply dbms db = .ok db') :
    ∀ q ∈ db.users.rows, q.username ≠ r.username := by
  simp only [Write.apply] at h
  split_ifs at h with _ hany
  simpa using hany

theorem fresh_applyAll (hcovers : ∀ w ∈ ws, row.Covers w)
    (h : Write.applyAll dbms ws db = .ok db') {r : UserRow} (hr : .insertUser r ∈ ws) {u : UUID}
    {q : UserRow} (hq : db.users.find? u = some q) : q.username ≠ r.username := by
  induction ws generalizing db q with
  | nil => simp at hr
  | cons w ws ih =>
    obtain ⟨mid,hw,hrest⟩ := Write.applyAll_cons h
    rcases List.mem_cons.mp hr with rfl | hr
    · exact insertUser_fresh hw q ((Table.find?_eq_some _ _ _).mp hq).1
    · obtain ⟨q',hq',hname⟩ := (tells_apply (hcovers w List.mem_cons_self) hw u).persists hq
      rw [← hname]
      exact ih (fun x hx => hcovers x (List.mem_cons_of_mem _ hx)) hrest hr hq'

/-- The row names the user, or a connection that is deleted. -/
def AuditEventRow.TellsScope (row : AuditEventRow) (u c : UUID) : Prop :=
  row.Names u ∧ (row.action = .userApprove ∨ row.action = .userRoleChange ∨
    row.action = .scopeUpdate) ∨
  row.NamesConnection c ∧ row.action = .connectionDelete

def AuditEventRow.TellsConnection (row : AuditEventRow) (c : UUID) : Prop :=
  row.NamesConnection c ∧ (row.action = .connectionCreate ∨ row.action = .connectionDelete)

theorem scopes_apply (hcovers : row.Covers w) (h : w.apply dbms db = .ok db')
    (s : UserConnectionScopeRow) :
    (s ∈ db'.userConnectionScopes.rows ↔ s ∈ db.userConnectionScopes.rows) ∨
      row.TellsScope s.userId s.connectionId := by
  cases w with
  | insertUser r =>
    obtain ⟨_,users,hu,rfl⟩ := Write.apply_insertUser h
    exact .inl .rfl
  | patchUser v p =>
    rw [(Write.apply_patchUser h).2]
    exact .inl .rfl
  | replaceScopes v ids grantedBy at_ =>
    by_cases hu : s.userId = v
    · rw [hu]
      exact .inr (.inl hcovers)
    · obtain ⟨_,scopes,hs,rfl⟩ := Write.apply_replaceScopes h
      have hrows := ((Table.insertAll_eq_some _ _ _).mp hs).2.2
      have hnew : s ∉ scopeRows v ids grantedBy at_ := fun hmem => by
        obtain ⟨c,_,rfl⟩ := List.mem_map.mp hmem
        exact hu rfl
      refine .inl ?_
      rw [hrows,List.mem_append,Table.mem_deleteWhere]
      simp [hu,hnew]
  | insertAudit r => exact hcovers.elim
  | insertConnection r =>
    obtain ⟨_,_,rfl⟩ := Write.apply_insertConnection h
    exact .inl .rfl
  | deleteConnection d =>
    by_cases hc : s.connectionId = d
    · rw [hc]
      exact .inr (.inr hcovers)
    · rw [Write.apply_deleteConnection h]
      refine .inl ?_
      simp [hc]

theorem connections_apply (hcovers : row.Covers w) (h : w.apply dbms db = .ok db') (c : UUID) :
    db'.connections.find? c = db.connections.find? c ∨ row.TellsConnection c := by
  cases w with
  | insertUser r =>
    obtain ⟨_,users,hu,rfl⟩ := Write.apply_insertUser h
    exact .inl rfl
  | patchUser v p =>
    rw [(Write.apply_patchUser h).2]
    exact .inl rfl
  | replaceScopes v ids grantedBy at_ =>
    obtain ⟨_,scopes,_,rfl⟩ := Write.apply_replaceScopes h
    exact .inl rfl
  | insertAudit r => exact hcovers.elim
  | insertConnection r =>
    obtain ⟨_,hi,rfl⟩ := Write.apply_insertConnection h
    simp only [Table.find?_insert hi]
    split
    · rename_i hc
      exact .inr ⟨hc ▸ hcovers.1,.inl hcovers.2⟩
    · exact .inl rfl
  | deleteConnection d =>
    by_cases hc : c = d
    · exact .inr ⟨hc ▸ hcovers.1,.inr hcovers.2⟩
    · rw [Write.apply_deleteConnection h]
      refine .inl (Table.find?_deleteWhere_other _ fun r hr => ?_)
      simpa [hr] using hc

theorem tables_apply (hcovers : row.Covers w) (h : w.apply dbms db = .ok db') :
    db'.auditEvents = db.auditEvents ∧ db'.virtualMachines = db.virtualMachines ∧
      db'.resourceIdentities = db.resourceIdentities := by
  cases w with
  | insertUser r =>
    obtain ⟨_,_,_,rfl⟩ := Write.apply_insertUser h
    exact ⟨rfl,rfl,rfl⟩
  | patchUser v p =>
    rw [(Write.apply_patchUser h).2]
    exact ⟨rfl,rfl,rfl⟩
  | replaceScopes v ids grantedBy at_ =>
    obtain ⟨_,_,_,rfl⟩ := Write.apply_replaceScopes h
    exact ⟨rfl,rfl,rfl⟩
  | insertAudit r => exact hcovers.elim
  | insertConnection r =>
    obtain ⟨_,_,rfl⟩ := Write.apply_insertConnection h
    exact ⟨rfl,rfl,rfl⟩
  | deleteConnection d =>
    rw [Write.apply_deleteConnection h]
    exact ⟨rfl,rfl,rfl⟩

end

/-- What one audit row tells of: the database after the act differs from the one before by the
row and by what the row names. -/
structure Database.Act (row : AuditEventRow) (db db' : Database) : Prop where
  logged : db'.auditEvents = db.auditEvents ++ [row]
  users : ∀ u, row.Tells u (db.users.find? u) (db'.users.find? u)
  status : ∀ u q', db'.users.find? u = some q' → ∀ s, row.toldStatus u q'.username = some s →
    q'.status = s
  scopes : ∀ s : UserConnectionScopeRow,
    (s ∈ db'.userConnectionScopes.rows ↔ s ∈ db.userConnectionScopes.rows) ∨
      row.TellsScope s.userId s.connectionId
  connections : ∀ c, db'.connections.find? c = db.connections.find? c ∨ row.TellsConnection c
  collected : db'.virtualMachines = db.virtualMachines ∧
    db'.resourceIdentities = db.resourceIdentities

section
variable {dbms : Dbms} {db db' : Database} {row : AuditEventRow} {ws : List Write}

open AuditEventRow

theorem rest_applyAll (hcovers : ∀ w ∈ ws, row.Covers w)
    (h : Write.applyAll dbms ws db = .ok db') :
    (∀ s : UserConnectionScopeRow,
      (s ∈ db'.userConnectionScopes.rows ↔ s ∈ db.userConnectionScopes.rows) ∨
        row.TellsScope s.userId s.connectionId) ∧
    (∀ c, db'.connections.find? c = db.connections.find? c ∨ row.TellsConnection c) ∧
    db'.auditEvents = db.auditEvents ∧ db'.virtualMachines = db.virtualMachines ∧
      db'.resourceIdentities = db.resourceIdentities := by
  induction ws generalizing db with
  | nil =>
    cases h
    exact ⟨fun _ => .inl .rfl,fun _ => .inl rfl,rfl,rfl,rfl⟩
  | cons w ws ih =>
    obtain ⟨mid,hw,hrest⟩ := Write.applyAll_cons h
    have hcover := hcovers w List.mem_cons_self
    obtain ⟨hscopes,hconnections,haudit,hvms,hids⟩ :=
      ih (fun x hx => hcovers x (List.mem_cons_of_mem w hx)) hrest
    obtain ⟨haudit',hvms',hids'⟩ := tables_apply hcover hw
    refine ⟨fun s => ?_,fun c => ?_,haudit.trans haudit',hvms.trans hvms',hids.trans hids'⟩
    · rcases hscopes s with h1 | h1
      · exact (scopes_apply hcover hw s).imp_left h1.trans
      · exact .inr h1
    · rcases hconnections c with h1 | h1
      · exact (connections_apply hcover hw c).imp_left h1.trans
      · exact .inr h1

/-- A commit of explained statements is the act that their row tells of. -/
theorem act_of_explains (hexplains : row.Explains ws)
    (h : Write.applyAll dbms (ws ++ [.insertAudit row]) db = .ok db') : db.Act row db' := by
  rw [Write.applyAll_append] at h
  obtain ⟨mid,hmid,haudit⟩ := bind_eq_ok.mp h
  obtain ⟨_,rfl⟩ := Write.apply_insertAudit haudit
  obtain ⟨hscopes,hconnections,hlog,hcollected⟩ := rest_applyAll hexplains.covers hmid
  have hall := tells_applyAll hexplains.covers hmid
  refine ⟨?_,hall,fun u q' hq s hs => ?_,hscopes,hconnections,
    hcollected⟩
  · rw [← hlog]
    rfl
  · unfold toldStatus at hs
    split_ifs at hs with haction hactor hname
    · cases hs
      obtain ⟨r,hr,hregister⟩ := hexplains.registered haction
      have hname : r.username = q'.username := Option.some.inj (hregister.symm.trans hactor)
      have htells := hall u
      rw [show mid.users.find? u = some q' from hq] at htells
      generalize hbefore : db.users.find? u = before at htells
      cases htells with
      | same => exact absurd hname.symm (fresh_applyAll hexplains.covers hmid hr hbefore)
      | changed q _ names found username status role hash =>
        have hfresh := fresh_applyAll hexplains.covers hmid hr (hbefore.trans found)
        exact absurd (username.symm.trans hname.symm) hfresh
      | registered _ action actor fresh status role => exact status
    · exact status_applyAll hexplains.covers hmid hs (hexplains.told u s hname hs) hq

end

/-- The portal with the sessions of some calls, all arrived and none begun. -/
def sessions {ι : Type} (env : Env) (calls : ι → PortalCall) (db : Database) :
    Open ι PortalAnswer :=
  openAll (fun i => (calls i).script env) db

section
variable {ι : Type} [DecidableEq ι] {dbms : Dbms} {env : Env} {calls : ι → PortalCall}
  {db : Database} {sys : Open ι PortalAnswer}

omit [DecidableEq ι] in
theorem sessions_behaved : (sessions env calls db).Behaved (exec dbms) Audited fun _ _ => True :=
  fun i => wp_portalCall (calls i)

/-- A step of a session leaves the database alone or commits one act; an administrative act
names an active administrator of whom the session has read. -/
theorem step_act (h : sys.Behaved (exec dbms) Audited fun _ _ => True) (i : ι) :
    (sys.step (exec dbms) i).shared = sys.shared ∨
    ∃ row, sys.shared.Act row (sys.step (exec dbms) i).shared ∧
      (row.action.administrative = true → ∃ r ∈ (sys.processes i).state.read,
        Database.isActiveAdmin r = true ∧ row.actor = some r.username) := by
  rcases step_shared dbms i sys with ⟨_,hsame⟩ | ⟨hcommit,happly⟩
  · exact .inl hsame
  · have hi := h i
    unfold commits at hcommit
    split at hcommit
    · rename_i next hscript
      rw [hscript] at hi
      simp only [Bool.and_eq_true,Bool.not_eq_true',decide_eq_true_eq] at hcommit
      rcases hi.1 with hinactive | hpending | ⟨ws,row,hpending,hexplains,hadmin⟩
      · rw [hinactive] at hcommit
        cases hcommit.1.1
      · exact absurd hpending hcommit.1.2
      · rw [hpending] at happly
        exact .inr ⟨row,act_of_explains hexplains happly,hadmin⟩
    · cases hcommit

end

/-- In every interleaving of sessions, each step leaves the database as it was or commits an
act whose audit row is appended by the same commit and tells of everything that the act has
changed: which account, which of its scopes, which connection. -/
theorem every_change_is_told {ι : Type} [DecidableEq ι] (env : Env) (dbms : Dbms)
    (calls : ι → PortalCall) (db : Database) (schedule : List ι) (i : ι) :
    let before := ((sessions env calls db).run (exec dbms) schedule).shared
    let after := ((sessions env calls db).run (exec dbms) (schedule ++ [i])).shared
    after = before ∨ ∃ row, before.Act row after := by
  intro before after
  have hafter : after =
      (((sessions env calls db).run (exec dbms) schedule).step (exec dbms) i).shared := by
    change ((sessions env calls db).run (exec dbms) (schedule ++ [i])).shared = _
    rw [System.run_append]
    rfl
  rw [hafter]
  rcases step_act (sessions_behaved.run schedule) i with hsame | ⟨row,hact,_⟩
  · exact .inl hsame
  · exact .inr ⟨row,hact⟩

namespace AuditEventRow

/-- The status of a user after what a log tells of him, oldest row first. -/
def statusAfter (userId : UUID) (username : String) (status : UserStatus)
    (log : List AuditEventRow) : UserStatus :=
  log.foldl (fun s row => (row.toldStatus userId username).getD s) status

theorem statusAfter_append (userId : UUID) (username : String) (status : UserStatus)
    (log : List AuditEventRow) (row : AuditEventRow) :
    statusAfter userId username status (log ++ [row]) =
      (row.toldStatus userId username).getD (statusAfter userId username status log) := by
  rw [statusAfter,List.foldl_append]
  rfl

end AuditEventRow

open AuditEventRow

/-- The status of a user, or the one that a registration starts with. -/
def Database.statusOr (db : Database) (userId : UUID) : UserStatus :=
  ((db.users.find? userId).map (·.status)).getD .pending

/-- The rows added to the log since `db` tell the status of every account. -/
def Database.ToldSince (db db' : Database) : Prop :=
  ∃ log, db'.auditEvents = db.auditEvents ++ log ∧ ∀ u row, db'.users.find? u = some row →
    row.status = statusAfter u row.username (db.statusOr u) log

theorem Database.ToldSince.refl (db : Database) : db.ToldSince db := by
  refine ⟨[],(List.append_nil _).symm,fun u row hrow => ?_⟩
  simp [statusAfter,Database.statusOr,hrow]

theorem Database.ToldSince.act {db mid db' : Database} {row : AuditEventRow}
    (h : db.ToldSince mid) (hact : mid.Act row db') : db.ToldSince db' := by
  obtain ⟨log,hlog,htold⟩ := h
  refine ⟨log ++ [row],by rw [hact.logged,hlog,List.append_assoc],fun u q' hq' => ?_⟩
  rw [statusAfter_append]
  cases ht : row.toldStatus u q'.username with
  | some s => exact hact.status u q' hq' s ht
  | none =>
    have htells := hact.users u
    rw [hq'] at htells
    generalize hbefore : mid.users.find? u = before at htells
    cases htells with
    | same => exact htold u q' hbefore
    | changed q _ names found username status role hash =>
      have hq := htold u q (hbefore.trans found)
      rw [username]
      rcases status with hs | hs
      · rw [hs,hq]
        rfl
      · unfold toldStatus at ht
        split_ifs at ht with haction
        · rw [haction] at hs
          cases hs
        · rw [ht] at hs
          cases hs
    | registered _ action actor fresh status role =>
      rw [toldStatus,if_pos action,if_pos actor] at ht
      cases ht

/-- In every interleaving of sessions, the status of every account is the one that the audit
log tells of: its last row about the account, or the registration, or the status at the start. -/
theorem status_is_told {ι : Type} [DecidableEq ι] (env : Env) (dbms : Dbms)
    (calls : ι → PortalCall) (db : Database) (schedule : List ι) :
    db.ToldSince ((sessions env calls db).run (exec dbms) schedule).shared := by
  have hrun : ((sessions env calls db).run (exec dbms) schedule).Behaved (exec dbms) Audited
      (fun _ _ => True) ∧
      db.ToldSince ((sessions env calls db).run (exec dbms) schedule).shared := by
    refine System.run_preserves (P:=fun sys => sys.Behaved (exec dbms) Audited (fun _ _ => True) ∧
      db.ToldSince sys.shared) (fun i sys h => ⟨h.1.step i,?_⟩) ⟨sessions_behaved,.refl db⟩ schedule
    rcases step_act h.1 i with hsame | ⟨row,hact,_⟩
    · rw [hsame]
      exact h.2
    · exact h.2.act hact
  exact hrun.2

end WzonePortal
