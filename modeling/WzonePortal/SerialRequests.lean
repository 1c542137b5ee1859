import WzonePortal.ReadCommitted

/-! A request that no other request interrupts. The session with loaded rows, changed columns
and pending statements then answers as the session with a plain working copy does, so the
sequential theorems speak about the same requests as the concurrent ones. -/
namespace WzonePortal

open ReadCommitted

/-- The stored texts that an account request may write back hold no U+0000. -/
def UserRow.textsStorable (r : UserRow) : Prop :=
  WzonePortal.storable r.passwordHash = true ∧ r.approvedBy.all WzonePortal.storable = true ∧
    r.rejectReason.all WzonePortal.storable = true

def Database.UsersStorable (db : Database) : Prop := ∀ r ∈ db.users.rows, r.textsStorable

section
variable {dbms : Dbms} {db db' : Database} {tx : Transaction} {s : Session}

theorem filter_ne_all {α : Type} [DecidableEq α] (o : Option α) {a : α} {p : α → Bool}
    (ha : p a = true) : (o.filter (· ≠ a)).all p = o.all p := by
  cases o with
  | none => rfl
  | some b => by_cases hb : b = a <;> simp [Option.filter,hb,ha]

theorem storable_changedFrom (p : UserPatch) {r : UserRow} (h : r.textsStorable) :
    (p.changedFrom r).storable = p.storable := by
  obtain ⟨h1,h2,h3⟩ := h
  simp only [UserPatch.storable,UserPatch.changedFrom]
  rw [filter_ne_all p.passwordHash h1,filter_ne_all p.approvedBy h2,filter_ne_all p.rejectReason h3]

theorem textsStorable_apply {p : UserPatch} (hp : p.storable = true) {r : UserRow}
    (h : r.textsStorable) : (p.apply r).textsStorable := by
  obtain ⟨h1,h2,h3⟩ := h
  simp only [UserPatch.storable,Bool.and_eq_true] at hp
  obtain ⟨⟨hp1,hp2⟩,hp3⟩ := hp
  refine ⟨?_,?_,?_⟩
  · cases hc : p.passwordHash with
    | none => simpa [UserPatch.apply,hc] using h1
    | some v => simpa [UserPatch.apply,hc] using hp1
  · cases hc : p.approvedBy with
    | none => simpa [UserPatch.apply,hc] using h2
    | some v => simpa [UserPatch.apply,hc] using hp2
  · cases hc : p.rejectReason with
    | none => simpa [UserPatch.apply,hc] using h3
    | some v => simpa [UserPatch.apply,hc] using hp3

theorem usersStorable_apply {w : Write} (h : db.UsersStorable) (hw : w.apply dbms db = .ok db') :
    db'.UsersStorable := by
  cases w with
  | insertUser row =>
    obtain ⟨hs,users,hi,rfl⟩ := Write.apply_insertUser hw
    intro r hr
    rw [(Table.insert_eq_some.mp hi).2,List.mem_append,List.mem_singleton] at hr
    rcases hr with hr | rfl
    · exact h r hr
    · simp only [UserRow.storable,Bool.and_eq_true] at hs
      exact ⟨hs.1.1.1.1.2,hs.1.2,hs.2⟩
  | patchUser userId p =>
    obtain ⟨hp,rfl⟩ := Write.apply_patchUser hw
    intro r hr
    obtain ⟨q,hq,rfl⟩ := (Table.mem_modify db.users userId p.apply p.apply_userId r).mp hr
    split
    · exact textsStorable_apply hp (h q hq)
    · exact h q hq
  | replaceScopes userId ids grantedBy at_ =>
    intro r hr
    rw [users_replaceScopes hw] at hr
    exact h r hr
  | insertAudit row =>
    obtain ⟨_,rfl⟩ := Write.apply_insertAudit hw
    exact h
  | insertConnection row =>
    obtain ⟨_,_,rfl⟩ := Write.apply_insertConnection hw
    exact h
  | deleteConnection c =>
    cases Write.apply_deleteConnection hw
    exact h

/-- The working copy of a session, and the same session as loaded rows and statements. -/
structure Related (dbms : Dbms) (s : Session) (db : Database) (tx : Transaction) : Prop where
  committed : s.committed = db
  inactive : s.inactive = tx.inactive
  working : Write.applyAll dbms tx.pending db = .ok s.working
  rows : ∀ r ∈ tx.rows, s.working.users.find? r.userId = some r
  kept : s.committed.UsersStorable
  changed : s.working.UsersStorable

theorem Related.fail (h : Related dbms s db tx) : Related dbms s.fail db .fail :=
  ⟨h.committed,rfl,by rw [← h.committed]; rfl,by simp [Transaction.fail],h.kept,h.kept⟩

theorem related_fresh (h : db.UsersStorable) : Related dbms (Session.fresh db) db {} :=
  ⟨rfl,rfl,rfl,by simp,h,h⟩

theorem Related.find? (h : Related dbms s db tx) {userId : UUID} {row : UserRow}
    (hr : tx.find? userId = some row) : s.working.users.find? userId = some row := by
  have hid : row.userId = userId := by simpa using List.find?_some hr
  rw [← hid]
  exact h.rows row (List.mem_of_find?_eq_some hr)

theorem Related.emitted (h : Related dbms s db tx) (w : Write) :
    (tx.emitted w).apply dbms s.working = w.apply dbms s.working := by
  cases w with
  | patchUser userId p =>
    cases hr : tx.find? userId with
    | none => simp only [Transaction.emitted,hr,Option.elim_none]
    | some row =>
      have hfind := h.find? hr
      obtain ⟨hmem,hid⟩ := (Table.find?_eq_some _ _ _).mp hfind
      have hpatch : s.working.patchUser userId (p.changedFrom row) =
          s.working.patchUser userId p := by
        simp only [Database.patchUser]
        congr 1
        apply Table.ext
        apply List.map_congr_left
        intro q hq
        by_cases hq' : q.userId = userId
        · have hqr := s.working.users.eq_of_key_eq hq hmem (hq'.trans hid.symm)
          rw [hqr,UserPatch.changedFrom_apply]
        · simp only [hq',decide_false,Bool.false_eq_true,if_false]
      simp only [Transaction.emitted,hr,Option.elim_some,Write.apply,hpatch,
        storable_changedFrom p (h.changed row hmem)]
  | insertUser row => rfl
  | replaceScopes userId ids grantedBy at_ => rfl
  | insertAudit row => rfl
  | insertConnection row => rfl
  | deleteConnection c => rfl

theorem Related.cached (h : Related dbms s db tx) {q : Query} {r : q.Res}
    (hq : tx.cached q = some r) : q.eval s.working = .ok r := by
  cases q with
  | userById userId =>
    obtain ⟨row,hrow,rfl⟩ := Option.map_eq_some_iff.mp hq
    exact congrArg Except.ok (h.find? hrow)
  | userByUsername username => cases hq
  | countActiveAdmins exclude => cases hq
  | scopesOf userId => cases hq
  | connectionById c => cases hq
  | connectionByTarget address username => cases hq
  | countActiveVms c => cases hq

theorem find_username {username : String} {row : UserRow}
    (hq : (Query.userByUsername username).eval db = .ok (some row)) : row ∈ db.users.rows := by
  simp only [Query.eval] at hq
  split_ifs at hq
  exact List.mem_of_find?_eq_some (Except.ok.inj hq)

theorem Related.resolve (h : Related dbms s db tx) {q : Query} {r : q.Res}
    (hq : q.eval s.working = .ok r) : tx.resolve q r = r := by
  cases q with
  | userByUsername username =>
    cases r with
    | none => rfl
    | some row =>
      have hfind := Table.find?_of_mem (find_username hq)
      cases hrow : tx.find? row.userId with
      | none => simp only [Transaction.resolve,Option.map_some,hrow,Option.getD_none]
      | some loaded =>
        have hsame := h.find? hrow
        rw [hfind,Option.some.injEq] at hsame
        simp only [Transaction.resolve,Option.map_some,hrow,Option.getD_some,← hsame]
  | userById userId => rfl
  | countActiveAdmins exclude => rfl
  | scopesOf userId => rfl
  | connectionById c => rfl
  | connectionByTarget address username => rfl
  | countActiveVms c => rfl

theorem Related.load (h : Related dbms s db tx) {row : UserRow} (hr : row ∈ s.working.users.rows) :
    Related dbms s db (tx.load row) := by
  unfold Transaction.load
  split
  · exact h
  · refine ⟨h.committed,h.inactive,h.working,fun r hr' => ?_,h.kept,h.changed⟩
    rcases List.mem_cons.mp hr' with rfl | hr'
    · exact Table.find?_of_mem hr
    · exact h.rows r hr'

theorem Related.remember (h : Related dbms s db tx) {q : Query} {r : q.Res}
    (hq : q.eval s.working = .ok r) : Related dbms s db (tx.remember q r) := by
  cases q with
  | userByUsername username =>
    cases r with
    | none => exact h
    | some row => exact h.load (find_username hq)
  | userById userId =>
    cases r with
    | none => exact h
    | some row => exact h.load ((Table.find?_eq_some _ _ _).mp (Except.ok.inj hq)).1
  | countActiveAdmins exclude => exact ⟨h.committed,h.inactive,h.working,h.rows,h.kept,h.changed⟩
  | scopesOf userId => exact h
  | connectionById c => exact h
  | connectionByTarget address username => exact h
  | countActiveVms c => exact h

theorem flushed_rows {w : Write} (hrows : ∀ r ∈ tx.rows, db.users.find? r.userId = some r)
    (hw : w.apply dbms db = .ok db') :
    ∀ r ∈ (tx.flushed w).rows, db'.users.find? r.userId = some r := by
  intro r hr
  cases w with
  | patchUser userId p =>
    obtain ⟨q,hq,rfl⟩ := List.mem_map.mp hr
    rw [(Write.apply_patchUser hw).2,find?_patchUser]
    by_cases hid : q.userId = userId
    · simp only [if_pos hid,UserPatch.apply_userId,hrows q hq,Option.map_some]
    · simp only [if_neg hid,hrows q hq]
  | insertUser row =>
    obtain ⟨_,users,hi,rfl⟩ := Write.apply_insertUser hw
    simp only [Table.find?_insert hi]
    rcases List.mem_cons.mp hr with rfl | hr
    · rw [if_pos rfl]
    · have hold := hrows r hr
      have hne : row.userId ≠ r.userId := by
        intro he
        have hmem := ((Table.find?_eq_some _ _ _).mp hold).1
        exact (Table.insert_eq_some.mp hi).1 (List.mem_map.mpr ⟨r,hmem,he.symm⟩)
      rw [if_neg hne]
      exact hold
  | replaceScopes userId ids grantedBy at_ =>
    rw [users_replaceScopes hw]
    exact hrows r hr
  | insertAudit row =>
    obtain ⟨_,rfl⟩ := Write.apply_insertAudit hw
    exact hrows r hr
  | insertConnection row =>
    obtain ⟨_,_,rfl⟩ := Write.apply_insertConnection hw
    exact hrows r hr
  | deleteConnection c =>
    cases Write.apply_deleteConnection hw
    exact hrows r hr

theorem Related.flushed (h : Related dbms s db tx) {w : Write}
    (hw : w.apply dbms s.working = .ok db') :
    Related dbms { s with working := db' } db (tx.flushed w) := by
  refine ⟨h.committed,h.inactive,?_,flushed_rows h.rows hw,h.kept,usersStorable_apply h.changed hw⟩
  have hall := @Write.applyAll_append dbms tx.pending (tx.emitted w) db
  rw [h.working] at hall
  exact hall.trans ((h.emitted w).trans hw)

/-- Each statement gets the same answer from both sessions and keeps them related. -/
theorem exec_related (o : Stmt) (s : Session) (db : Database) (tx : Transaction)
    (h : Related dbms s db tx) : (Session.exec dbms o s).1 = (exec dbms o db tx).1 ∧
      Related dbms (Session.exec dbms o s).2 (exec dbms o db tx).2.1 (exec dbms o db tx).2.2 := by
  cases o with
  | query q =>
    simp only [Session.exec,exec,execQuery,← h.inactive]
    by_cases hi : s.inactive = true
    · simp only [if_pos hi]
      exact ⟨trivial,h⟩
    · simp only [if_neg hi]
      cases hc : tx.cached q with
      | some r =>
        rw [h.cached hc]
        exact ⟨rfl,h⟩
      | none =>
        have hview : (Write.applyAll dbms tx.pending db >>= q.eval) = q.eval s.working := by
          rw [h.working]
          rfl
        rw [hview]
        cases hq : q.eval s.working with
        | ok r => exact ⟨congrArg Except.ok (h.resolve hq).symm,h.remember hq⟩
        | error e => exact ⟨rfl,h.fail⟩
  | write w =>
    simp only [Session.exec,exec,execWrite,← h.inactive]
    by_cases hi : s.inactive = true
    · simp only [if_pos hi]
      exact ⟨trivial,h⟩
    · simp only [if_neg hi]
      have hview : Write.applyAll dbms (tx.pending ++ [tx.emitted w]) db =
          w.apply dbms s.working := by
        rw [Write.applyAll_append,h.working]
        exact h.emitted w
      rw [hview]
      cases hw : w.apply dbms s.working with
      | ok db' => exact ⟨rfl,h.flushed hw⟩
      | error e => exact ⟨rfl,h.fail⟩
  | commit =>
    simp only [Session.exec,exec,execCommit,← h.inactive]
    by_cases hi : s.inactive = true
    · simp only [if_pos hi]
      exact ⟨trivial,h⟩
    · simp only [if_neg hi,h.working]
      exact ⟨trivial,rfl,rfl,rfl,h.rows,h.changed,h.changed⟩
  | rollback =>
    have hfresh := @related_fresh dbms s.committed h.kept
    rw [h.committed] at hfresh
    refine ⟨rfl,?_⟩
    simp only [Session.exec,exec,h.committed]
    exact hfresh

/-- A request that runs alone has the outcome of the sequential server. -/
theorem alone_eq_serve {ι : Type} [DecidableEq ι] (env : Env) (calls : ι → Call) (i : ι)
    (h : db.UsersStorable) : ∃ n,
    ((start env calls db).run (exec dbms) (List.replicate n i)).shared =
      ((calls i).serve dbms env db).2 ∧
    (((start env calls db).run (exec dbms) (List.replicate n i)).processes i).script =
      .done ((calls i).serve dbms env db).1 := by
  have hp : ((start env calls db).processes i).script =
    getDb ((calls i).request.handler env (calls i).ctx) := rfl
  obtain ⟨n,hrelated,hscript⟩ := System.run_simulates exec_related i hp (@related_fresh dbms db h)
  exact ⟨n,hrelated.committed.symm,hscript⟩

end
end WzonePortal
