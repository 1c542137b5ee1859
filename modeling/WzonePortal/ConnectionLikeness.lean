import WzonePortal.ReadCommitted
import WzonePortal.TwoRuns

/-! Databases that differ in the ciphertexts of the connections only. Alike statements are
answered alike on them, and leave them alike. -/
namespace WzonePortal

open ReadCommitted Transaction

def ConnectionRow.withoutPassword (row : ConnectionRow) : ConnectionRow :=
  { row with passwordEncrypted := "" }

/-- The databases differ in ciphertexts only. -/
structure Database.Alike (db db' : Database) : Prop where
  connections : db.connections.rows.map ConnectionRow.withoutPassword =
    db'.connections.rows.map ConnectionRow.withoutPassword
  virtualMachines : db.virtualMachines = db'.virtualMachines
  resourceIdentities : db.resourceIdentities = db'.resourceIdentities
  users : db.users = db'.users
  userConnectionScopes : db.userConnectionScopes = db'.userConnectionScopes
  auditEvents : db.auditEvents = db'.auditEvents

/-- The statements differ in a ciphertext at most, which the column takes in both runs. -/
inductive Write.Alike : Write → Write → Prop
  | same (w : Write) : Alike w w
  | insertConnection (row row' : ConnectionRow) (hrow : row.withoutPassword = row'.withoutPassword)
      (hstorable : storable row.passwordEncrypted = storable row'.passwordEncrypted) :
      Alike (.insertConnection row) (.insertConnection row')

/-- What a query tells without the ciphertexts. -/
def Query.hide : (q : Query) → q.Res → q.Res
  | .userByUsername _, found => found
  | .userById _, found => found
  | .countActiveAdmins _, n => n
  | .scopesOf _, ids => ids
  | .connectionById _, found => Option.map ConnectionRow.withoutPassword found
  | .connectionByTarget _ _, found => Option.map ConnectionRow.withoutPassword found
  | .countActiveVms _, n => n

inductive Stmt.Alike : Stmt → Stmt → Prop
  | query (q : Query) : Alike (.query q) (.query q)
  | write {w w' : Write} (h : w.Alike w') : Alike (.write w) (.write w')
  | commit : Alike .commit .commit
  | rollback : Alike .rollback .rollback

/-- The likeness of two runs with other connection passwords. -/
def exceptPasswords : Likeness Stmt.Res Exc where
  op := Stmt.Alike
  answer
    | .query q, .query q', r, r' => HEq (r.map q.hide) (r'.map q'.hide)
    | .write _, .write _, r, r' => r = r'
    | .commit, .commit, r, r' => r = r'
    | .rollback, .rollback, r, r' => r = r'
    | _, _, _, _ => False

structure Transaction.Alike (tx tx' : Transaction) : Prop where
  rows : tx.rows = tx'.rows
  read : tx.read = tx'.read
  counted : tx.counted = tx'.counted
  pending : List.Forall₂ Write.Alike tx.pending tx'.pending
  inactive : tx.inactive = tx'.inactive

section
variable {db db' : Database} {rows rows' : List ConnectionRow}

theorem any_withoutPassword {φ : ConnectionRow → Bool}
    (hφ : ∀ row, φ row.withoutPassword = φ row)
    (h : rows.map ConnectionRow.withoutPassword = rows'.map ConnectionRow.withoutPassword) :
    rows.any φ = rows'.any φ := by
  have hany : ∀ rows : List ConnectionRow,
      (rows.map ConnectionRow.withoutPassword).any φ = rows.any φ := by
    intro rows
    rw [List.any_map]
    exact congrArg rows.any (funext hφ)
  rw [← hany rows,h,hany]

theorem find?_withoutPassword {φ : ConnectionRow → Bool}
    (hφ : ∀ row, φ row.withoutPassword = φ row)
    (h : rows.map ConnectionRow.withoutPassword = rows'.map ConnectionRow.withoutPassword) :
    (rows.find? φ).map ConnectionRow.withoutPassword =
      (rows'.find? φ).map ConnectionRow.withoutPassword := by
  have hfind : ∀ rows : List ConnectionRow,
      (rows.map ConnectionRow.withoutPassword).find? φ =
        (rows.find? φ).map ConnectionRow.withoutPassword := by
    intro rows
    rw [List.find?_map]
    exact congrArg (fun ψ => (rows.find? ψ).map _) (funext hφ)
  rw [← hfind rows,h,hfind]

theorem filter_withoutPassword {φ : ConnectionRow → Bool}
    (hφ : ∀ row, φ row.withoutPassword = φ row)
    (h : rows.map ConnectionRow.withoutPassword = rows'.map ConnectionRow.withoutPassword) :
    (rows.filter φ).map ConnectionRow.withoutPassword =
      (rows'.filter φ).map ConnectionRow.withoutPassword := by
  have hfilter : ∀ rows : List ConnectionRow,
      (rows.map ConnectionRow.withoutPassword).filter φ =
        (rows.filter φ).map ConnectionRow.withoutPassword := by
    intro rows
    rw [List.filter_map]
    exact congrArg (fun ψ => (rows.filter ψ).map _) (funext hφ)
  rw [← hfilter rows,h,hfilter]

theorem map_connectionId_eq
    (h : rows.map ConnectionRow.withoutPassword = rows'.map ConnectionRow.withoutPassword) :
    rows.map ConnectionRow.connectionId = rows'.map ConnectionRow.connectionId := by
  have hids := congrArg (List.map ConnectionRow.connectionId) h
  simpa only [List.map_map,Function.comp_def,ConnectionRow.withoutPassword] using hids

namespace Database.Alike

theorem refl (db : Database) : db.Alike db := ⟨rfl,rfl,rfl,rfl,rfl,rfl⟩

theorem isSome_connection (h : db.Alike db') (connectionId : UUID) :
    (db.connections.find? connectionId).isSome = (db'.connections.find? connectionId).isSome := by
  have hfind := find?_withoutPassword (φ:=fun r => r.connectionId = connectionId) (fun _ => rfl)
    h.connections
  have hsome := congrArg Option.isSome hfind
  rwa [Option.isSome_map,Option.isSome_map] at hsome

theorem eval (h : db.Alike db') (q : Query) :
    (q.eval db).map q.hide = (q.eval db').map q.hide := by
  cases q with
  | userByUsername username => simp only [Query.eval,h.users]
  | userById userId => simp only [Query.eval,h.users]
  | countActiveAdmins exclude => simp only [Query.eval,Database.countActiveAdmins,h.users]
  | scopesOf userId => simp only [Query.eval,Database.scopesOf,h.userConnectionScopes]
  | countActiveVms connectionId =>
    simp only [Query.eval,Database.countActiveVms,h.virtualMachines]
  | connectionById connectionId =>
    exact congrArg Except.ok (find?_withoutPassword (fun _ => rfl) h.connections)
  | connectionByTarget address username =>
    simp only [Query.eval]
    split
    · exact congrArg Except.ok (find?_withoutPassword (fun _ => rfl) h.connections)
    · rfl

end Database.Alike

/-- Both runs refuse a statement, or both take it. -/
def OutcomesAlike : Except Exc Database → Except Exc Database → Prop
  | .ok db, .ok db' => db.Alike db'
  | .error e, .error e' => e = e'
  | _, _ => False

theorem storable_withoutPassword {row row' : ConnectionRow}
    (hrow : row.withoutPassword = row'.withoutPassword)
    (h : storable row.passwordEncrypted = storable row'.passwordEncrypted) :
    row.storable = row'.storable := by
  simp only [ConnectionRow.withoutPassword,ConnectionRow.mk.injEq] at hrow
  obtain ⟨_,_,hname,haddress,_,husername,_,_,_,_,hsession,_⟩ := hrow
  simp only [ConnectionRow.storable,hname,haddress,husername,hsession,h]

theorem apply_insertConnection_alike (dbms : Dbms) {row row' : ConnectionRow} (h : db.Alike db')
    (hrow : row.withoutPassword = row'.withoutPassword)
    (hstorable : storable row.passwordEncrypted = storable row'.passwordEncrypted) :
    OutcomesAlike ((Write.insertConnection row).apply dbms db)
      ((Write.insertConnection row').apply dbms db') := by
  have hcolumns := hrow
  simp only [ConnectionRow.withoutPassword,ConnectionRow.mk.injEq] at hcolumns
  obtain ⟨hid,_,_,haddress,_,husername,_⟩ := hcolumns
  have hany := any_withoutPassword
    (φ:=fun r => decide (r.address = row'.address) && decide (r.username = row'.username))
    (fun _ => rfl) h.connections
  simp only [Write.apply,storable_withoutPassword hrow hstorable,haddress,husername,hany]
  split
  · rfl
  split
  · rfl
  have hkeys := map_connectionId_eq h.connections
  by_cases hk : row.connectionId ∈ db.connections.rows.map ConnectionRow.connectionId
  · have hk' : row'.connectionId ∈ db'.connections.rows.map ConnectionRow.connectionId := by
      rwa [← hid,← hkeys]
    simp only [Table.insert,dif_pos hk,dif_pos hk']
    rfl
  · have hk' : row'.connectionId ∉ db'.connections.rows.map ConnectionRow.connectionId := by
      rwa [← hid,← hkeys]
    obtain ⟨t,ht,hrows⟩ := Table.insert_isSome hk
    obtain ⟨t',ht',hrows'⟩ := Table.insert_isSome hk'
    simp only [ht,ht']
    refine { h with connections := ?_ }
    simp only [hrows,hrows',List.map_append,h.connections,List.map_singleton,hrow]

theorem apply_alike (dbms : Dbms) {w w' : Write} (h : db.Alike db') (hw : w.Alike w') :
    OutcomesAlike (w.apply dbms db) (w'.apply dbms db') := by
  cases hw with
  | insertConnection row row' hrow hstorable => exact apply_insertConnection_alike dbms h hrow hstorable
  | same =>
    cases w with
    | insertConnection row => exact apply_insertConnection_alike dbms h rfl rfl
    | insertUser row =>
      simp only [Write.apply,h.users]
      split
      · rfl
      split
      · rfl
      cases db'.users.insert row with
      | none => rfl
      | some users => exact { h with users := rfl }
    | patchUser userId p =>
      simp only [Write.apply]
      split
      · exact { h with users := by simp only [Database.patchUser,h.users] }
      · rfl
    | replaceScopes userId ids grantedBy at_ =>
      simp only [Write.apply,h.userConnectionScopes,h.users,h.isSome_connection]
      split
      · cases ((db'.userConnectionScopes.deleteWhere fun r => r.userId = userId).insertAll
          (scopeRows userId ids grantedBy at_)) with
        | none => rfl
        | some scopes =>
          exact ⟨h.connections,h.virtualMachines,h.resourceIdentities,rfl,rfl,h.auditEvents⟩
      · rfl
    | insertAudit row =>
      simp only [Write.apply]
      split
      · exact { h with auditEvents := by simp only [Database.addAudit,h.auditEvents] }
      · rfl
    | deleteConnection connectionId =>
      simp only [Write.apply,h.virtualMachines]
      split
      · rfl
      · exact ⟨filter_withoutPassword (fun _ => rfl) h.connections,rfl,h.resourceIdentities,
          h.users,by simp only [h.userConnectionScopes],h.auditEvents⟩

theorem applyAll_alike (dbms : Dbms) {ws ws' : List Write} (hws : List.Forall₂ Write.Alike ws ws')
    (h : db.Alike db') :
    OutcomesAlike (Write.applyAll dbms ws db) (Write.applyAll dbms ws' db') := by
  induction hws generalizing db db' with
  | nil => exact h
  | @cons w w' ws ws' hw _ ih =>
    have hstep := apply_alike dbms h hw
    simp only [Write.applyAll]
    cases hmid : w.apply dbms db <;> cases hmid' : w'.apply dbms db' <;>
      rw [hmid,hmid'] at hstep
    · exact hstep
    · exact hstep.elim
    · exact hstep.elim
    · exact ih hstep

end

section
variable (dbms : Dbms) {db db' : Database} {tx tx' : Transaction}

namespace Transaction.Alike

theorem refl (tx : Transaction) : tx.Alike tx where
  rows := rfl
  read := rfl
  counted := rfl
  pending := List.forall₂_same.mpr fun w _ => .same w
  inactive := rfl

theorem find? (h : tx.Alike tx') (userId : UUID) : tx.find? userId = tx'.find? userId := by
  rw [Transaction.find?,h.rows]
  rfl

theorem cached (h : tx.Alike tx') (q : Query) : tx.cached q = tx'.cached q := by
  cases q <;> simp only [Transaction.cached,h.find?]

theorem load (h : tx.Alike tx') (row : UserRow) : (tx.load row).Alike (tx'.load row) := by
  simp only [Transaction.load,h.find?]
  split
  · exact h
  · exact ⟨by simp only [h.rows],by simp only [h.read],h.counted,h.pending,h.inactive⟩

theorem emitted (h : tx.Alike tx') {w w' : Write} (hw : w.Alike w') :
    (tx.emitted w).Alike (tx'.emitted w') := by
  cases hw with
  | insertConnection row row' hrow hstorable => exact .insertConnection row row' hrow hstorable
  | same =>
    cases w with
    | patchUser userId p =>
      simp only [Transaction.emitted,h.find?]
      exact .same _
    | _ => exact .same _

theorem flushed (h : tx.Alike tx') {w w' : Write} (hw : w.Alike w') :
    (tx.flushed w).Alike (tx'.flushed w') := by
  have hpending : List.Forall₂ Write.Alike (tx.pending ++ [tx.emitted w])
      (tx'.pending ++ [tx'.emitted w']) :=
    List.rel_append h.pending (.cons (h.emitted hw) .nil)
  cases hw with
  | insertConnection row row' hrow hstorable =>
    exact ⟨h.rows,h.read,h.counted,hpending,h.inactive⟩
  | same =>
    refine ⟨?_,h.read,h.counted,hpending,h.inactive⟩
    cases w <;> simp only [Transaction.flushed,h.rows]

/-- Alike answers are remembered alike, and resolved alike. -/
theorem answered (h : tx.Alike tx') {q : Query} {r r' : q.Res} (hr : q.hide r = q.hide r') :
    q.hide (tx.resolve q r) = q.hide (tx'.resolve q r') ∧
      (tx.remember q r).Alike (tx'.remember q r') := by
  have hload : ∀ found : Option UserRow,
      (Option.elim found tx tx.load).Alike (Option.elim found tx' tx'.load) := by
    intro found
    cases found with
    | none => exact h
    | some row => exact h.load row
  cases q with
  | userByUsername username =>
    obtain rfl : r = r' := hr
    refine ⟨?_,hload r⟩
    simp only [Query.hide,Transaction.resolve,h.find?]
  | userById userId =>
    obtain rfl : r = r' := hr
    exact ⟨rfl,hload r⟩
  | countActiveAdmins exclude =>
    obtain rfl : r = r' := hr
    exact ⟨rfl,h.rows,h.read,by simp only [Transaction.remember,h.counted],h.pending,h.inactive⟩
  | scopesOf userId => exact ⟨hr,h⟩
  | connectionById connectionId => exact ⟨hr,h⟩
  | connectionByTarget address username => exact ⟨hr,h⟩
  | countActiveVms connectionId => exact ⟨hr,h⟩

end Transaction.Alike

theorem eval_pending_alike (hdb : db.Alike db') (htx : tx.Alike tx') (q : Query) :
    (Write.applyAll dbms tx.pending db >>= q.eval).map q.hide =
      (Write.applyAll dbms tx'.pending db' >>= q.eval).map q.hide := by
  have hall := applyAll_alike dbms htx.pending hdb
  cases hmid : Write.applyAll dbms tx.pending db <;>
    cases hmid' : Write.applyAll dbms tx'.pending db' <;> rw [hmid,hmid'] at hall
  · obtain rfl := hall
    rfl
  · exact hall.elim
  · exact hall.elim
  · exact Database.Alike.eval hall q

theorem execQuery_alike (hdb : db.Alike db') (htx : tx.Alike tx') (q : Query) :
    (execQuery dbms q db tx).1.map q.hide = (execQuery dbms q db' tx').1.map q.hide ∧
      (execQuery dbms q db tx).2.1.Alike (execQuery dbms q db' tx').2.1 ∧
      (execQuery dbms q db tx).2.2.Alike (execQuery dbms q db' tx').2.2 := by
  simp only [execQuery,htx.inactive,htx.cached]
  split
  · exact ⟨rfl,hdb,htx⟩
  cases tx'.cached q with
  | some r => exact ⟨rfl,hdb,htx⟩
  | none =>
    have heval := eval_pending_alike dbms hdb htx q
    dsimp only
    cases hr : Write.applyAll dbms tx.pending db >>= q.eval <;>
      cases hr' : Write.applyAll dbms tx'.pending db' >>= q.eval <;> rw [hr,hr'] at heval
    · cases heval
      exact ⟨rfl,hdb,.refl _⟩
    · cases heval
    · cases heval
    · obtain ⟨hanswer,hremember⟩ := htx.answered (Except.ok.inj heval)
      exact ⟨congrArg Except.ok hanswer,hdb,hremember⟩

theorem execWrite_alike (hdb : db.Alike db') (htx : tx.Alike tx') {w w' : Write}
    (hw : w.Alike w') : (execWrite dbms w db tx).1 = (execWrite dbms w' db' tx').1 ∧
      (execWrite dbms w db tx).2.1.Alike (execWrite dbms w' db' tx').2.1 ∧
      (execWrite dbms w db tx).2.2.Alike (execWrite dbms w' db' tx').2.2 := by
  simp only [execWrite,htx.inactive]
  split
  · exact ⟨rfl,hdb,htx⟩
  have hall := applyAll_alike dbms
    (List.rel_append htx.pending (.cons (htx.emitted hw) .nil)) hdb
  cases hmid : Write.applyAll dbms (tx.pending ++ [tx.emitted w]) db <;>
    cases hmid' : Write.applyAll dbms (tx'.pending ++ [tx'.emitted w']) db' <;>
      rw [hmid,hmid'] at hall
  · exact ⟨congrArg Except.error hall,hdb,.refl _⟩
  · exact hall.elim
  · exact hall.elim
  · exact ⟨rfl,hdb,htx.flushed hw⟩

theorem execCommit_alike (hdb : db.Alike db') (htx : tx.Alike tx') :
    (execCommit dbms db tx).1 = (execCommit dbms db' tx').1 ∧
      (execCommit dbms db tx).2.1.Alike (execCommit dbms db' tx').2.1 ∧
      (execCommit dbms db tx).2.2.Alike (execCommit dbms db' tx').2.2 := by
  simp only [execCommit,htx.inactive]
  split
  · exact ⟨rfl,hdb,htx⟩
  have hall := applyAll_alike dbms htx.pending hdb
  cases hmid : Write.applyAll dbms tx.pending db <;>
    cases hmid' : Write.applyAll dbms tx'.pending db' <;> rw [hmid,hmid'] at hall
  · exact ⟨congrArg Except.error hall,hdb,.refl _⟩
  · exact hall.elim
  · exact hall.elim
  · exact ⟨rfl,hall,⟨htx.rows,htx.read,htx.counted,.nil,rfl⟩⟩

/-- The database keeps two runs alike. -/
theorem exceptPasswords_kept :
    exceptPasswords.Kept (exec dbms) Database.Alike Transaction.Alike := by
  intro o o' db db' tx tx' hop hdb htx
  cases hop with
  | query q =>
    obtain ⟨hanswer,hshared,hlocal⟩ := execQuery_alike dbms hdb htx q
    exact ⟨heq_of_eq hanswer,hshared,hlocal⟩
  | write hw => exact execWrite_alike dbms hdb htx hw
  | commit => exact execCommit_alike dbms hdb htx
  | rollback => exact ⟨rfl,hdb,.refl _⟩

end

end WzonePortal
