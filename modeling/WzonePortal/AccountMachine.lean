import WzonePortal.Bootstrap

/-! The account machine: what registration and administration are for, one account at a
time, as role, status and the set of connections in scope. Every successful request is one
event of this machine; a failed one changes nothing. -/
namespace WzonePortal

structure Account where
  role : Role
  status : UserStatus
  scope : Finset UUID
  deriving DecidableEq

abbrev Accounts := UUID → Option Account

inductive AccountEvent
  | registered (userId : UUID)
  | approved (userId : UUID) (role : Role) (scope : Finset UUID)
  | rejected (userId : UUID)
  | disabled (userId : UUID)
  | enabled (userId : UUID)
  | roleChanged (userId : UUID) (role : Role)
  | scopesSet (userId : UUID) (scope : Finset UUID)
  | connectionDeleted (connectionId : UUID)
  | unrelated

namespace Accounts

def update (s : Accounts) (userId : UUID) (f : Account → Account) : Accounts := fun u =>
  if u = userId then (s u).map f else s u

@[simp] theorem update_self (s : Accounts) (u : UUID) (f : Account → Account) :
    s.update u f u = (s u).map f := if_pos rfl

theorem update_of_ne (s : Accounts) {u v : UUID} (h : u ≠ v) (f : Account → Account) :
    s.update v f u = s u := if_neg h

end Accounts

namespace AccountEvent

/-- In which states an event can happen. -/
def Enabled (s : Accounts) : AccountEvent → Prop
  | .registered u => s u = none
  | .approved u role scope => (∃ a, s u = some a ∧ .active ∈ allowedTransitions a.status) ∧
      (role = .admin → scope = ∅)
  | .rejected u => ∃ a, s u = some a ∧ .rejected ∈ allowedTransitions a.status
  | .disabled u => ∃ a, s u = some a ∧ .disabled ∈ allowedTransitions a.status
  | .enabled u => ∃ a, s u = some a ∧ .active ∈ allowedTransitions a.status
  | .roleChanged u _ => ∃ a, s u = some a
  | .scopesSet u _ => ∃ a, s u = some a ∧ a.role ≠ .admin
  | .connectionDeleted _ => True
  | .unrelated => True

def apply (s : Accounts) : AccountEvent → Accounts
  | .registered userId => fun u => if u = userId then some ⟨.viewer,.pending,∅⟩ else s u
  | .approved userId role scope => s.update userId fun _ => ⟨role,.active,scope⟩
  | .rejected userId => s.update userId fun a => { a with status := .rejected }
  | .disabled userId => s.update userId fun a => { a with status := .disabled }
  | .enabled userId => s.update userId fun a => { a with status := .active }
  | .roleChanged userId role => s.update userId fun a =>
      ⟨role,a.status,if role = .admin then ∅ else a.scope⟩
  | .scopesSet userId scope => s.update userId fun a => { a with scope := scope }
  | .connectionDeleted c => fun u => (s u).map fun a => { a with scope := a.scope.erase c }
  | .unrelated => s

/-- The set in scope for a user after an event, given the set before: the latest
assignment counts, and deleted connections disappear. -/
def grants (userId : UUID) (before : Finset UUID) : AccountEvent → Finset UUID
  | .registered u => if u = userId then ∅ else before
  | .approved u _ scope => if u = userId then scope else before
  | .scopesSet u scope => if u = userId then scope else before
  | .roleChanged u role => if u = userId ∧ role = .admin then ∅ else before
  | .connectionDeleted c => before.erase c
  | .rejected _ => before
  | .disabled _ => before
  | .enabled _ => before
  | .unrelated => before

theorem update_eq_some {s : Accounts} {v u : UUID} {f : Account → Account} {a : Account}
    (h : s.update v f u = some a) : ∃ b, s u = some b ∧ a = if u = v then f b else b := by
  by_cases hu : u = v
  · subst hu
    rw [Accounts.update_self,Option.map_eq_some_iff] at h
    obtain ⟨b,hb,rfl⟩ := h
    exact ⟨b,hb,(if_pos rfl).symm⟩
  · rw [Accounts.update_of_ne s hu] at h
    exact ⟨a,h,(if_neg hu).symm⟩

/-- An event changes the status of the user it names and of nobody else. -/
theorem status_cases {s : Accounts} {e : AccountEvent} {u : UUID} {a : Account}
    (ha : e.apply s u = some a) :
    (∃ b, s u = some b ∧ a.status = b.status) ∨
    (e = .registered u ∧ a.status = .pending) ∨
    (∃ role scope, e = .approved u role scope ∧ a = ⟨role,.active,scope⟩) ∨
    (e = .rejected u ∧ a.status = .rejected) ∨
    (e = .disabled u ∧ a.status = .disabled) ∨
    (∃ b, e = .enabled u ∧ s u = some b ∧ a = { b with status := .active }) := by
  cases e with
  | registered v =>
    simp only [apply] at ha
    by_cases hu : u = v
    · rw [if_pos hu] at ha
      cases ha
      exact .inr (.inl ⟨by rw [hu],rfl⟩)
    · rw [if_neg hu] at ha
      exact .inl ⟨a,ha,rfl⟩
  | approved v role scope =>
    obtain ⟨b,hb,rfl⟩ := update_eq_some ha
    by_cases hu : u = v
    · exact .inr (.inr (.inl ⟨role,scope,by rw [hu],if_pos hu⟩))
    · exact .inl ⟨b,hb,by rw [if_neg hu]⟩
  | rejected v =>
    obtain ⟨b,hb,rfl⟩ := update_eq_some ha
    by_cases hu : u = v
    · exact .inr (.inr (.inr (.inl ⟨by rw [hu],by rw [if_pos hu]⟩)))
    · exact .inl ⟨b,hb,by rw [if_neg hu]⟩
  | disabled v =>
    obtain ⟨b,hb,rfl⟩ := update_eq_some ha
    by_cases hu : u = v
    · exact .inr (.inr (.inr (.inr (.inl ⟨by rw [hu],by rw [if_pos hu]⟩))))
    · exact .inl ⟨b,hb,by rw [if_neg hu]⟩
  | enabled v =>
    obtain ⟨b,hb,rfl⟩ := update_eq_some ha
    by_cases hu : u = v
    · exact .inr (.inr (.inr (.inr (.inr ⟨b,by rw [hu],hb,if_pos hu⟩))))
    · exact .inl ⟨b,hb,by rw [if_neg hu]⟩
  | roleChanged v role =>
    obtain ⟨b,hb,rfl⟩ := update_eq_some ha
    exact .inl ⟨b,hb,by by_cases hu : u = v <;> simp [hu]⟩
  | scopesSet v scope =>
    obtain ⟨b,hb,rfl⟩ := update_eq_some ha
    exact .inl ⟨b,hb,by by_cases hu : u = v <;> simp [hu]⟩
  | connectionDeleted c =>
    obtain ⟨b,hb,rfl⟩ := Option.map_eq_some_iff.mp ha
    exact .inl ⟨b,hb,rfl⟩
  | unrelated => exact .inl ⟨a,ha,rfl⟩

theorem apply_grants {s : Accounts} {e : AccountEvent} {u : UUID} {a : Account}
    {before : Finset UUID} (hs : ∀ b, s u = some b → b.scope = before)
    (ha : e.apply s u = some a) : a.scope = e.grants u before := by
  cases e with
  | registered v =>
    simp only [apply] at ha
    by_cases hu : u = v
    · rw [if_pos hu] at ha
      cases ha
      simp [grants,hu]
    · rw [if_neg hu] at ha
      simp [grants,Ne.symm hu,hs a ha]
  | connectionDeleted c =>
    obtain ⟨b,hb,rfl⟩ := Option.map_eq_some_iff.mp ha
    simp [grants,hs b hb]
  | unrelated => exact hs a ha
  | approved v role scope =>
    obtain ⟨b,hb,rfl⟩ := update_eq_some ha
    by_cases hu : u = v
    · simp [grants,hu]
    · simp [grants,hu,Ne.symm hu,hs b hb]
  | scopesSet v scope =>
    obtain ⟨b,hb,rfl⟩ := update_eq_some ha
    by_cases hu : u = v
    · simp [grants,hu]
    · simp [grants,hu,Ne.symm hu,hs b hb]
  | roleChanged v role =>
    obtain ⟨b,hb,rfl⟩ := update_eq_some ha
    have hscope := hs b hb
    by_cases hu : u = v
    · by_cases hadmin : role = .admin <;> simp [grants,hu,hadmin,hscope]
    · simp [grants,hu,Ne.symm hu,hscope]
  | rejected v =>
    obtain ⟨b,hb,rfl⟩ := update_eq_some ha
    have hscope := hs b hb
    by_cases hu : u = v <;> simp [grants,hu,hscope]
  | disabled v =>
    obtain ⟨b,hb,rfl⟩ := update_eq_some ha
    have hscope := hs b hb
    by_cases hu : u = v <;> simp [grants,hu,hscope]
  | enabled v =>
    obtain ⟨b,hb,rfl⟩ := update_eq_some ha
    have hscope := hs b hb
    by_cases hu : u = v <;> simp [grants,hu,hscope]

/-- Administrators carry no explicit scope. -/
def AdminsUnscoped (s : Accounts) : Prop :=
  ∀ u a, s u = some a → a.role = .admin → a.scope = ∅

theorem update_adminsUnscoped {s : Accounts} (h : AdminsUnscoped s) {userId : UUID}
    {f : Account → Account} (hf : ∀ a, s userId = some a → (f a).role = .admin → (f a).scope = ∅) :
    AdminsUnscoped (s.update userId f) := by
  intro u b hb hadmin
  by_cases hu : u = userId
  · subst hu
    rw [Accounts.update_self,Option.map_eq_some_iff] at hb
    obtain ⟨a,ha,rfl⟩ := hb
    exact hf a ha hadmin
  · rw [Accounts.update_of_ne s hu] at hb
    exact h u b hb hadmin

theorem apply_adminsUnscoped {s : Accounts} (h : AdminsUnscoped s) {e : AccountEvent}
    (he : e.Enabled s) : AdminsUnscoped (e.apply s) := by
  cases e with
  | registered userId =>
    intro u a ha hadmin
    simp only [apply] at ha
    split at ha
    · cases ha; rfl
    · exact h u a ha hadmin
  | approved userId role scope => exact update_adminsUnscoped h fun _ _ hr => he.2 hr
  | rejected userId => exact update_adminsUnscoped h fun a ha hr => h userId a ha hr
  | disabled userId => exact update_adminsUnscoped h fun a ha hr => h userId a ha hr
  | enabled userId => exact update_adminsUnscoped h fun a ha hr => h userId a ha hr
  | roleChanged userId role => exact update_adminsUnscoped h fun a ha hr => if_pos hr
  | scopesSet userId scope =>
    obtain ⟨b,hb,hrole⟩ := he
    refine update_adminsUnscoped h fun a ha hr => absurd hr ?_
    rw [hb] at ha
    cases ha
    exact hrole
  | connectionDeleted c =>
    intro u a ha hadmin
    simp only [apply,Option.map_eq_some_iff] at ha
    obtain ⟨b,hb,rfl⟩ := ha
    simp [h u b hb hadmin]
  | unrelated => exact h

end AccountEvent

def Database.accounts (db : Database) : Accounts := fun u =>
  (db.users.find? u).map fun r => ⟨r.role,r.status,(db.scopesOf u).toFinset⟩

/-- Scope rows belong to existing users, and stored user names are storable texts. -/
structure Database.WellFormed (db : Database) : Prop where
  scopes : ∀ r ∈ db.userConnectionScopes.rows, (db.users.find? r.userId).isSome
  usernames : ∀ r ∈ db.users.rows, storable r.username = true

section
variable {dbms : Dbms} {db db' : Database}

theorem Bootstrapped.wellFormed {admin : UUID} (h : Bootstrapped db admin) : db.WellFormed := by
  obtain ⟨row,hrow,_,_,_,hname⟩ := h.users
  refine ⟨?_,?_⟩
  · rw [h.scopes]
    simp
  · rw [hrow]
    simpa using hname

theorem patchUser_wellFormed (h : db.WellFormed) (userId : UUID) (p : UserPatch) :
    (db.patchUser userId p).WellFormed := by
  refine ⟨fun r hr => ?_,fun r hr => ?_⟩
  · rw [find?_patchUser]
    have hs := h.scopes r hr
    split
    · simpa using hs
    · exact hs
  · obtain ⟨q,hq,rfl⟩ := (Table.mem_modify _ _ _ p.apply_userId _).mp hr
    split
    · exact h.usernames q hq
    · exact h.usernames q hq

/-- Every write keeps the foreign key of the scopes and the user names. -/
theorem apply_wellFormed (h : db.WellFormed) {x : Write} (hx : x.apply dbms db = .ok db') :
    db'.WellFormed := by
  cases x with
  | insertUser row =>
    obtain ⟨hs,users,hu,rfl⟩ := Write.apply_insertUser hx
    refine ⟨fun r hr => ?_,fun r hr => ?_⟩
    · have hr := h.scopes r hr
      simp only [Table.find?_insert hu]
      split
      · rfl
      · exact hr
    · rw [(Table.insert_eq_some.mp hu).2] at hr
      rcases List.mem_append.mp hr with hr | hr
      · exact h.usernames r hr
      · simp only [List.mem_singleton] at hr
        subst hr
        simp only [UserRow.storable,Bool.and_eq_true] at hs
        exact hs.1.1.1.1.1.2
  | patchUser userId p =>
    obtain ⟨_,rfl⟩ := Write.apply_patchUser hx
    exact patchUser_wellFormed h userId p
  | replaceScopes userId ids grantedBy at_ =>
    obtain ⟨hall,scopes,hs,rfl⟩ := Write.apply_replaceScopes hx
    refine ⟨fun r hr => ?_,h.usernames⟩
    rw [((Table.insertAll_eq_some _ _ _).mp hs).2.2] at hr
    rcases List.mem_append.mp hr with hr | hr
    · exact h.scopes r ((Table.mem_deleteWhere _ _ _).mp hr).1
    · obtain ⟨c,hc,rfl⟩ := List.mem_map.mp hr
      exact (hall c (List.mem_eraseDups.mp hc)).2
  | insertAudit row =>
    obtain ⟨_,rfl⟩ := Write.apply_insertAudit hx
    exact ⟨h.scopes,h.usernames⟩
  | insertConnection row =>
    obtain ⟨_,_,rfl⟩ := Write.apply_insertConnection hx
    exact ⟨h.scopes,h.usernames⟩
  | deleteConnection c =>
    cases Write.apply_deleteConnection hx
    exact ⟨fun r hr => h.scopes r ((Table.mem_deleteWhere _ _ _).mp hr).1,h.usernames⟩

theorem applyAll_wellFormed (h : db.WellFormed) {ws : List Write}
    (hx : Write.applyAll dbms ws db = .ok db') : db'.WellFormed := by
  induction ws generalizing db with
  | nil => cases hx; exact h
  | cons x ws ih =>
    obtain ⟨mid,hw,hx⟩ := Write.applyAll_cons hx
    exact ih (apply_wellFormed h hw) hx

theorem serve_wellFormed (h : db.WellFormed) (env : Env) (call : Call) :
    (call.serve dbms env db).2.WellFormed := by
  rcases hs : call.serve dbms env db with ⟨x,db'⟩
  cases x with
  | ok r =>
    obtain ⟨d,w,_,hw,_,_,rfl⟩ := serve_ok hs
    have hwf := applyAll_wellFormed h hw
    exact ⟨hwf.scopes,hwf.usernames⟩
  | error e =>
    have hdb : db' = db := serve_failed hs
    rw [hdb]
    exact h

end
end WzonePortal
