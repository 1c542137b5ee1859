import WzonePortal.AccountRefinement
import WzonePortal.ScopedHistory
import WzonePortal.UsersPage

/-! What every run of the account page keeps: the dialog that is open names the account that its
confirmation is going to touch, and every request on its way was offered for an account of a list
that the server gave out. -/
namespace WzonePortal
namespace UsersPage

/-- An account of somebody else that the page lets be changed. -/
def Changeable (session : MeResponse) (user : UserResponse) : Prop :=
  user.userId ≠ session.user.userId ∧ (user.status = .active ∨ user.status = .disabled)

def knownConnections (session : MeResponse) : List UUID :=
  session.accessibleConnections.map (·.connectionId)

/-- The accounts that the page offers an action for, going by its list. -/
def Action.Offered (session : MeResponse) (user : UserResponse) : Action → Prop
  | .approveUser role ids => user.status = .pending ∧ ids ⊆ knownConnections session ∧
      (role = .admin → ids = [])
  | .rejectUser => user.status = .pending
  | .setUserEnabled enabled => Changeable session user ∧
      user.status = if enabled then .disabled else .active
  | .changeUserRole role => Changeable session user ∧ role = nextRole user.role
  | .setUserScopes ids => Changeable session user ∧ user.role ≠ .admin ∧
      ids ⊆ knownConnections session
  | .resetUserPassword => Changeable session user

/-- The text in front of an action that needs no choices. -/
def confirmation (user : UserResponse) : Action → Option ConfirmModal
  | .rejectUser => some (confirmReject user)
  | .setUserEnabled true => some (confirmEnable user)
  | .setUserEnabled false => some (confirmDisable user)
  | .changeUserRole _ => some (confirmRoleChange user)
  | .resetUserPassword => some (confirmResetPassword user)
  | .approveUser _ _ | .setUserScopes _ => none

/-- A dialog names the account and shows what is going to be done to it. -/
def Dialog.Says (user : UserResponse) (action : Action) : Dialog → Prop
  | .approve name role boxes => name = shownName user ∧
      action = .approveUser role (if role = .admin then [] else selectedScopes boxes)
  | .scope name boxes => name = shownName user ∧ action = .setUserScopes (selectedScopes boxes)
  | .confirm title body okLabel => ∃ modal, confirmation user action = some modal ∧
      modal.title = title ∧ modal.body = body ∧ modal.okLabel = okLabel

/-- A request that the page offered and a dialog announced. -/
structure ApiCall.Announced (session : MeResponse) (listed : UserResponse → Prop)
    (call : ApiCall) : Prop where
  listed : listed call.user
  offered : call.action.Offered session call.user
  shown : call.shown.Says call.user call.action

/-- The boxes of a dialog stand for connections that the page knows. -/
def Boxes.Known (boxes : Boxes) (session : MeResponse) : Prop :=
  ∀ b ∈ boxes, b.1 ∈ knownConnections session

structure Page.Kept (listed : UserResponse → Prop) (s : Page) : Prop where
  connections : s.connections = s.session.accessibleConnections
  users : ∀ user ∈ s.users, listed user
  approve : ∀ modal, s.approve = some modal → ∃ user, s.target = some user ∧ listed user ∧
    modal.name = shownName user ∧ user.status = .pending ∧ Boxes.Known modal.boxes s.session
  scope : ∀ modal, s.scope = some modal → ∃ user, s.target = some user ∧ listed user ∧
    modal.name = shownName user ∧ Changeable s.session user ∧ user.role ≠ .admin ∧
    Boxes.Known modal.boxes s.session
  confirm : ∀ modal, s.confirm = some modal → listed modal.user ∧
    modal.onOk.Offered s.session modal.user ∧
    Dialog.Says modal.user modal.onOk (.confirm modal.title modal.body modal.okLabel)

section
variable {listed listed' : UserResponse → Prop} {s : Page} {user : UserResponse}

theorem forall_of_hidden {α : Type} {dialog : Option α} {p : α → Prop} (h : dialog = none) :
    ∀ modal, dialog = some modal → p modal := by
  intro modal hm
  rw [h] at hm
  cases hm

theorem forall_mem_concat {α : Type} {p : α → Prop} {l : List α} {a : α}
    (hl : ∀ x ∈ l, p x) (ha : p a) : ∀ x ∈ l ++ [a], p x :=
  List.forall_mem_append.mpr ⟨hl,List.forall_mem_singleton.mpr ha⟩

theorem announced_nil {session : MeResponse} :
    ∀ call, .act call ∈ ([] : List Message) → call.Announced session listed := by
  intro call hcall
  cases hcall

theorem announced_single {session : MeResponse} {call : ApiCall}
    (h : call.Announced session listed) :
    ∀ c, .act c ∈ [Message.act call] → c.Announced session listed := by
  intro c hc
  rw [List.mem_singleton,Message.act.injEq] at hc
  exact hc ▸ h

theorem selectedScopes_subset {boxes : Boxes} {session : MeResponse}
    (h : Boxes.Known boxes session) : selectedScopes boxes ⊆ knownConnections session := by
  intro c hc
  obtain ⟨b,hb,rfl⟩ := List.mem_map.mp hc
  exact h b (List.mem_of_mem_filter hb)

theorem known_scopeBoxes (h : s.connections = s.session.accessibleConnections)
    (selected : List UUID) : Boxes.Known (s.scopeBoxes selected) s.session := by
  intro b hb
  obtain ⟨c,hc,rfl⟩ := List.mem_map.mp hb
  exact List.mem_map.mpr ⟨c,h ▸ hc,rfl⟩

theorem known_toggle {boxes : Boxes} {session : MeResponse} (h : Boxes.Known boxes session)
    (n : ℕ) : Boxes.Known (boxes.toggle n) session := by
  intro b hb
  obtain ⟨i,hi⟩ := List.mem_iff_getElem?.mp hb
  simp only [Boxes.toggle,List.getElem?_modify,Option.map_eq_map,Option.map_eq_some_iff] at hi
  obtain ⟨b',hb',he⟩ := hi
  have hknown := h b' (List.mem_of_getElem? hb')
  split at he <;> exact he ▸ hknown

theorem Page.Kept.mono (h : s.Kept listed) (hsub : ∀ user, listed user → listed' user) :
    s.Kept listed' where
  connections := h.connections
  users := fun user hu => hsub user (h.users user hu)
  approve := fun modal hm => by
    obtain ⟨user,htarget,hlisted,hrest⟩ := h.approve modal hm
    exact ⟨user,htarget,hsub user hlisted,hrest⟩
  scope := fun modal hm => by
    obtain ⟨user,htarget,hlisted,hrest⟩ := h.scope modal hm
    exact ⟨user,htarget,hsub user hlisted,hrest⟩
  confirm := fun modal hm => ⟨hsub _ (h.confirm modal hm).1,(h.confirm modal hm).2⟩

theorem changeable_of_rowButtons {b : Button} (hb : b ∈ s.rowButtons user) :
    Changeable s.session user ∧ (b = .scope ∧ user.role ≠ .admin ∨ b = .role ∨ b = .password ∨
      b = if user.status = .active then .disable else .enable) := by
  unfold Page.rowButtons at hb
  split at hb
  · rename_i h
    obtain ⟨hself,hpending,hrejected⟩ := h
    refine ⟨⟨hself,?_⟩,?_⟩
    · cases hs : user.status <;> simp_all
    · by_cases hrole : user.role = .admin <;> simpa [hrole] using hb
  · cases hb

/-- A button that is drawn offers its action, one case for each button. -/
theorem Page.Kept.press (h : s.Kept listed) (huser : listed user) {b : Button}
    (hb : b ∈ s.buttons user) (hview : s.uncovered = true) : (s.press user b).Kept listed := by
  have hclosed : s.approve = none ∧ s.scope = none ∧ s.confirm = none ∧ s.secret = none := by
    simpa [Page.uncovered,and_assoc] using hview
  obtain ⟨happrove,hscope,hconfirm,-⟩ := hclosed
  have hask : ∀ modal : ConfirmModal, modal.user = user → modal.onOk.Offered s.session user →
      confirmation user modal.onOk = some modal → (s.openConfirm modal).Kept listed := by
    intro modal hmodal hoffered hshown
    refine { h with
      approve := forall_of_hidden happrove
      scope := forall_of_hidden hscope
      confirm := ?_ }
    intro m hm
    cases hm
    rw [hmodal]
    exact ⟨huser,hoffered,modal,hshown,rfl,rfl,rfl⟩
  have hpending : user.status = .pending → b = .approve ∨ b = .reject →
      (s.press user b).Kept listed := by
    rintro hstatus (rfl | rfl)
    · refine { h with
        approve := ?_
        scope := forall_of_hidden hscope
        confirm := forall_of_hidden hconfirm }
      intro m hm
      cases hm
      exact ⟨user,rfl,huser,rfl,hstatus,known_scopeBoxes h.connections _⟩
    · exact hask (confirmReject user) rfl hstatus rfl
  rcases List.mem_append.mp hb with hb | hb
  · unfold Page.pendingButtons at hb
    split at hb
    · rename_i hstatus
      exact hpending hstatus (by simpa using hb)
    · cases hb
  · obtain ⟨hchange,⟨rfl,hrole⟩ | rfl | rfl | rfl⟩ := changeable_of_rowButtons hb
    · refine { h with
        approve := forall_of_hidden happrove
        scope := ?_
        confirm := forall_of_hidden hconfirm }
      intro m hm
      cases hm
      exact ⟨user,rfl,huser,rfl,hchange,hrole,known_scopeBoxes h.connections _⟩
    · exact hask (confirmRoleChange user) rfl ⟨hchange,rfl⟩ rfl
    · exact hask (confirmResetPassword user) rfl hchange rfl
    · by_cases hactive : user.status = .active
      · rw [if_pos hactive]
        exact hask (confirmDisable user) rfl ⟨hchange,hactive⟩ rfl
      · rw [if_neg hactive]
        exact hask (confirmEnable user) rfl ⟨hchange,hchange.2.resolve_left hactive⟩ rfl

theorem Page.Kept.confirmApprove (h : s.Kept listed) : s.confirmApprove.1.Kept listed ∧
    ∀ call, .act call ∈ s.confirmApprove.2 → call.Announced s.session listed := by
  unfold Page.confirmApprove
  split
  · rename_i modal user hmodal htarget
    obtain ⟨user',htarget',hlisted,hname,hstatus,hknown⟩ := h.approve modal hmodal
    rw [htarget] at htarget'
    cases htarget'
    have hwarned : ∀ (c : Prop) [Decidable c] (toast : Option (String × Bool)),
        (if c then { s with toast := toast } else s).Kept listed := by
      intro c _ toast
      split
      · exact { h with }
      · exact h
    refine ⟨hwarned _ _,announced_single
      ⟨hlisted,⟨hstatus,?_,fun hrole => if_pos hrole⟩,hname,rfl⟩⟩
    split
    · exact List.nil_subset _
    · exact selectedScopes_subset hknown
  · exact ⟨h,announced_nil⟩

theorem Page.Kept.saveScope (h : s.Kept listed) : s.saveScope.1.Kept listed ∧
    ∀ call, .act call ∈ s.saveScope.2 → call.Announced s.session listed := by
  unfold Page.saveScope
  split
  · rename_i modal user hmodal htarget
    obtain ⟨user',htarget',hlisted,hname,hchange,hrole,hknown⟩ := h.scope modal hmodal
    rw [htarget] at htarget'
    cases htarget'
    exact ⟨h,announced_single
      ⟨hlisted,⟨hchange,hrole,selectedScopes_subset hknown⟩,hname,rfl⟩⟩
  · exact ⟨h,announced_nil⟩

theorem Page.Kept.runConfirm (h : s.Kept listed) : s.runConfirm.1.Kept listed ∧
    ∀ call, .act call ∈ s.runConfirm.2 → call.Announced s.session listed := by
  unfold Page.runConfirm
  split
  · rename_i modal hmodal
    obtain ⟨hlisted,hoffered,hwords⟩ := h.confirm modal hmodal
    exact ⟨h,announced_single ⟨hlisted,hoffered,hwords⟩⟩
  · exact ⟨h,announced_nil⟩

theorem Page.Kept.modifyApprove (h : s.Kept listed) (f : ApproveModal → ApproveModal)
    (hname : ∀ m, (f m).name = m.name)
    (hboxes : ∀ m, Boxes.Known m.boxes s.session → Boxes.Known (f m).boxes s.session) :
    { s with approve := s.approve.map f }.Kept listed := by
  refine { h with approve := ?_ }
  intro modal hm
  obtain ⟨old,hold,rfl⟩ := Option.map_eq_some_iff.mp hm
  obtain ⟨user,hu,hlisted,hshown,hstatus,hknown⟩ := h.approve old hold
  exact ⟨user,hu,hlisted,(hname old).trans hshown,hstatus,hboxes old hknown⟩

theorem Page.Kept.modifyScope (h : s.Kept listed) (f : ScopeModal → ScopeModal)
    (hname : ∀ m, (f m).name = m.name)
    (hboxes : ∀ m, Boxes.Known m.boxes s.session → Boxes.Known (f m).boxes s.session) :
    { s with scope := s.scope.map f }.Kept listed := by
  refine { h with scope := ?_ }
  intro modal hm
  obtain ⟨old,hold,rfl⟩ := Option.map_eq_some_iff.mp hm
  obtain ⟨user,hu,hlisted,hshown,hchange,hrole,hknown⟩ := h.scope old hold
  exact ⟨user,hu,hlisted,(hname old).trans hshown,hchange,hrole,hboxes old hknown⟩

theorem Page.Kept.failConfirm (h : s.Kept listed) (text : String) :
    { s with
      confirm := s.confirm.map fun m : ConfirmModal => { m with error := text } }.Kept listed := by
  refine { h with confirm := ?_ }
  intro modal hm
  obtain ⟨old,hold,rfl⟩ := Option.map_eq_some_iff.mp hm
  exact h.confirm old hold

/-- One event of the page, one case for each. -/
theorem Page.Kept.handle (h : s.Kept listed) (e : Use)
    (hview : ∀ user b, e = .press user b → s.uncovered = true) :
    (s.handle e).1.Kept listed ∧
      ∀ call, .act call ∈ (s.handle e).2 → call.Announced s.session listed := by
  cases e with
  | press user b =>
    refine ⟨?_,announced_nil⟩
    simp only [Page.handle]
    split
    · rename_i hdrawn
      exact h.press (h.users user hdrawn.1) hdrawn.2 (hview user b rfl)
    · exact h
  | chooseRole role => exact ⟨h.modifyApprove _ (fun _ => rfl) fun _ hk => hk,announced_nil⟩
  | tickApprove n =>
    exact ⟨h.modifyApprove _ (fun _ => rfl) fun _ hk => known_toggle hk n,announced_nil⟩
  | tickScope n =>
    exact ⟨h.modifyScope _ (fun _ => rfl) fun _ hk => known_toggle hk n,announced_nil⟩
  | confirmApprove => exact h.confirmApprove
  | saveScope => exact h.saveScope
  | runConfirm => exact h.runConfirm
  | closeAll =>
    exact ⟨{ h with
      approve := forall_of_hidden rfl
      scope := forall_of_hidden rfl
      confirm := forall_of_hidden rfl },announced_nil⟩

/-- An answer closes dialogs, reports an error in one, or brings a list. -/
theorem Page.Kept.receive (h : s.Kept listed) (answer : Answer)
    (hlist : ∀ response, answer = .listUsers (.ok response) →
      ∀ user ∈ response.items, listed user) :
    (s.receive answer).1.Kept listed := by
  cases answer with
  | listUsers result =>
    cases result with
    | ok response => exact { h with users := hlist response rfl }
    | error message => exact ⟨h.connections,h.users,h.approve,h.scope,h.confirm⟩
  | act call result =>
    cases result with
    | ok body =>
      simp only [Page.receive]
      split
      · exact { h with approve := forall_of_hidden rfl }
      · exact { h with scope := forall_of_hidden rfl }
      · split <;> exact { h with confirm := forall_of_hidden rfl }
      · exact { h with confirm := forall_of_hidden rfl }
    | error message =>
      simp only [Page.receive]
      split
      · exact h.modifyApprove _ (fun _ => rfl) fun _ hk => hk
      · exact h.modifyScope _ (fun _ => rfl) fun _ hk => hk
      · exact h.failConfirm _

theorem receive_messages (s : Page) (answer : Answer) (call : ApiCall) :
    .act call ∉ (s.receive answer).2 := by
  unfold Page.receive
  repeat' split
  all_goals simp

theorem handle_frame (s : Page) (e : Use) : (s.handle e).1.session = s.session ∧
    ∀ modal, (s.handle e).1.secret = some modal → s.secret = some modal := by
  cases e with
  | press user b =>
    simp only [Page.handle]
    split
    · cases b <;> exact ⟨rfl,fun _ hm => hm⟩
    · exact ⟨rfl,fun _ hm => hm⟩
  | confirmApprove =>
    simp only [Page.handle,Page.confirmApprove]
    repeat' split
    all_goals exact ⟨rfl,fun _ hm => hm⟩
  | saveScope =>
    simp only [Page.handle,Page.saveScope]
    split <;> exact ⟨rfl,fun _ hm => hm⟩
  | runConfirm =>
    simp only [Page.handle,Page.runConfirm]
    split <;> exact ⟨rfl,fun _ hm => hm⟩
  | closeAll => exact ⟨rfl,forall_of_hidden rfl⟩
  | _ => exact ⟨rfl,fun _ hm => hm⟩

theorem receive_session (s : Page) (answer : Answer) :
    (s.receive answer).1.session = s.session := by
  unfold Page.receive
  repeat' split
  all_goals rfl

end
def Served.result (dbms : Dbms) (env : Env) (s : Served) : Except Exc Response × Database :=
  (⟨s.ctx,s.call.request⟩ : Call).serve dbms env s.db

/-- A row of a list that was given out: the account as it was on the database of the answer. -/
def Office.Listed (o : Office) (user : UserResponse) : Prop :=
  ∃ p ∈ o.listed, user ∈ p.2.items ∧ ∃ a, p.1.accounts user.userId = some a ∧
    a.role = user.role ∧ a.status = user.status

/-- An answer that speaks of success comes from the server. -/
def Answer.Honest (dbms : Dbms) (env : Env) (o : Office) : Answer → Prop
  | .act call result => ∀ body, result = .ok body → ∃ s ∈ o.served, s.call = call ∧
      Api.request (httpAnswer (s.result dbms env).1) = .ok body
  | .listUsers result => ∀ response, result = .ok response →
      ∀ user ∈ response.items, o.Listed user

structure Office.Kept (dbms : Dbms) (env : Env) (me : MeResponse) (o : Office) : Prop where
  session : o.page.session = me
  page : o.page.Kept o.Listed
  sent : ∀ call, .act call ∈ o.sent → call.Announced me o.Listed
  answered : ∀ answer ∈ o.answered, answer.Honest dbms env o
  served : ∀ s ∈ o.served, s.call.Announced me o.Listed ∧ s.db.WellFormed
  secret : ∀ modal, o.page.secret = some modal → ∃ s ∈ o.served,
    s.call.action = .resetUserPassword ∧ modal.name = shownName s.call.user ∧
    (s.result dbms env).1 = .ok (.temporaryPassword modal.value)
  wellFormed : o.db.WellFormed

section
variable {dbms : Dbms} {env : Env} {me : MeResponse} {o o' : Office} {db : Database}

theorem login_wellFormed (h : db.WellFormed) (attempt : LoginAttempt) :
    (attempt.serve dbms env db).2.WellFormed := by
  refine LoginAttempt.serve_cases Database.WellFormed h fun row w _ hw event _ => ?_
  have hwf := applyAll_wellFormed h hw
  exact ⟨hwf.scopes,hwf.usernames⟩

theorem collect_wellFormed (h : db.WellFormed) (call : VirtualMachineRepository.UpsertCall) :
    ((PortalEvent.collect call).run dbms env db).WellFormed := by
  refine collect_cases Database.WellFormed h fun result db' hrun => ?_
  obtain ⟨u,hu,hdb⟩ := bind_eq_ok.mp hrun
  cases hdb
  rw [upsertAll_others hu]
  exact ⟨h.scopes,h.usernames⟩

theorem event_wellFormed (h : db.WellFormed) (e : PortalEvent) :
    (e.run dbms env db).WellFormed := by
  cases e with
  | request call => exact serve_wellFormed h env call
  | login attempt => exact login_wellFormed h attempt
  | collect call => exact collect_wellFormed h call

theorem mem_listRows {status : Option UserStatus} {r : UserRow}
    (h : r ∈ UserRepository.listRows status db) : r ∈ db.users.rows :=
  List.mem_of_mem_filter ((List.mem_insertionSort _).mp h)

theorem listUsers_items {cookie : Cookie} {status : Option UserStatus}
    {response : UserListResponse} (h : Routes.listUsers dbms cookie status db = .ok response)
    {user : UserResponse} (hu : user ∈ response.items) :
    ∃ a, db.accounts user.userId = some a ∧ a.role = user.role ∧ a.status = user.status := by
  obtain ⟨_,_,h⟩ := bind_eq_ok.mp h
  cases h
  obtain ⟨r,hr,rfl⟩ := List.mem_map.mp hu
  exact ⟨_,accounts_of_find (Table.find?_of_mem (mem_listRows hr)),rfl,rfl⟩

theorem Office.Listed.mono {user : UserResponse} (h : o.Listed user)
    (hsub : ∀ p ∈ o.listed, p ∈ o'.listed) : o'.Listed user := by
  obtain ⟨p,hp,hrest⟩ := h
  exact ⟨p,hsub p hp,hrest⟩

theorem ApiCall.Announced.mono {listed listed' : UserResponse → Prop} {call : ApiCall}
    (h : call.Announced me listed) (hsub : ∀ user, listed user → listed' user) :
    call.Announced me listed' :=
  ⟨hsub _ h.listed,h.offered,h.shown⟩

theorem Answer.Honest.mono {answer : Answer} (h : answer.Honest dbms env o)
    (hlisted : ∀ p ∈ o.listed, p ∈ o'.listed) (hserved : ∀ s ∈ o.served, s ∈ o'.served) :
    answer.Honest dbms env o' := by
  cases answer with
  | act call result =>
    intro body hbody
    obtain ⟨s,hs,hrest⟩ := h body hbody
    exact ⟨s,hserved s hs,hrest⟩
  | listUsers result =>
    intro response hresponse user hu
    exact (h response hresponse user hu).mono hlisted

theorem honest_lost {answer : Answer} (text : String) : (answer.lost text).Honest dbms env o := by
  cases answer with
  | act call result => exact fun body hbody => by cases hbody
  | listUsers result => exact fun response hresponse => by cases hresponse

theorem honest_lostMessage {message : Message} (text : String) :
    (message.lost text).Honest dbms env o := by
  cases message with
  | act call => exact fun body hbody => by cases hbody
  | listUsers => exact fun response hresponse => by cases hresponse

theorem receive_secret {s : Page} {answer : Answer} {modal : SecretModal}
    (h : (s.receive answer).1.secret = some modal) : s.secret = some modal ∨
      ∃ call, answer = .act call (.ok (.temporaryPassword modal.value)) ∧
        call.action = .resetUserPassword ∧ modal.name = shownName call.user := by
  cases answer with
  | listUsers result => cases result <;> exact .inl h
  | act call result =>
    cases result with
    | ok body =>
      simp only [Page.receive] at h
      split at h
      · exact .inl h
      · exact .inl h
      · rename_i hreset
        split at h
        · cases h
          exact .inr ⟨call,rfl,hreset,rfl⟩
        · exact .inl h
      · exact .inl h
    | error message =>
      simp only [Page.receive] at h
      split at h <;> exact .inl h

theorem result_of_temporary {x : Except Exc Response} {value : String}
    (h : Api.request (httpAnswer x) = .ok (.temporaryPassword value)) :
    x = .ok (.temporaryPassword value) := by
  cases x with
  | ok r =>
    cases r with
    | temporaryPassword temporary =>
      cases h
      rfl
    | _ => cases h
  | error e =>
    have hbody : ∀ r : HttpResponse, Api.request r = .ok (.temporaryPassword value) →
        r.body = .temporaryPassword value := by
      intro r hr
      unfold Api.request at hr
      split_ifs at hr
      · cases hr
      · exact Except.ok.inj hr
    have hb := hbody _ h
    cases e <;> cases hb

theorem Office.Kept.use (h : o.Kept dbms env me) (e : Use)
    (hview : Step.inView o (.use e) = true) : (o.step dbms env (.use e)).Kept dbms env me := by
  obtain ⟨hpage,hsent⟩ := h.page.handle e fun user b he => by
    subst he
    exact hview
  refine { h with
    session := (handle_frame _ _).1.trans h.session
    page := hpage
    sent := fun call hcall => ?_
    secret := fun modal hm => h.secret modal ((handle_frame _ _).2 modal hm) }
  rcases List.mem_append.mp hcall with hold | hnew
  · exact h.sent call hold
  · exact h.session ▸ hsent call hnew

/-- A request that arrives is recorded with the database it meets. -/
theorem Office.Kept.serve (h : o.Kept dbms env me) (n : ℕ) (ctx : Context) :
    (o.serve dbms env n ctx).Kept dbms env me := by
  unfold Office.serve
  split
  · rename_i call hcall
    have hannounced := h.sent call (List.mem_of_getElem? hcall)
    have hgrow : ∀ s ∈ o.served, s ∈ o.served ++ [⟨call,ctx,o.db⟩] :=
      fun s hs => List.mem_append_left _ hs
    refine { h with
      sent := fun c hc => h.sent c (List.mem_of_mem_eraseIdx hc)
      answered := forall_mem_concat
        (fun answer ha => (h.answered answer ha).mono (fun p hp => hp) hgrow)
        fun body hbody => ⟨⟨call,ctx,o.db⟩,by simp,rfl,hbody⟩
      served := forall_mem_concat h.served ⟨hannounced,h.wellFormed⟩
      secret := fun modal hm => ?_
      wellFormed := serve_wellFormed h.wellFormed env _ }
    obtain ⟨s,hs,hrest⟩ := h.secret modal hm
    exact ⟨s,hgrow s hs,hrest⟩
  · split
    · rename_i response hlist
      have hgrow : ∀ p ∈ o.listed, p ∈ o.listed ++ [(o.db,response)] :=
        fun p hp => List.mem_append_left _ hp
      have hmono : ∀ user, o.Listed user → Office.Listed { o with
          sent := o.sent.eraseIdx n
          answered := o.answered ++ [.listUsers (.ok response)]
          listed := o.listed ++ [(o.db,response)] } user :=
        fun user hu => hu.mono hgrow
      refine { h with
        page := h.page.mono hmono
        sent := fun c hc => (h.sent c (List.mem_of_mem_eraseIdx hc)).mono hmono
        answered := forall_mem_concat
          (fun answer ha => (h.answered answer ha).mono hgrow fun s hs => hs) ?_
        served := fun s hs => ⟨(h.served s hs).1.mono hmono,(h.served s hs).2⟩ }
      intro r hr user hu
      cases hr
      exact ⟨(o.db,response),by simp,hu,listUsers_items hlist hu⟩
    · exact { h with
        sent := fun c hc => h.sent c (List.mem_of_mem_eraseIdx hc)
        answered := forall_mem_concat h.answered fun r hr => by cases hr }
  · exact h

theorem Office.Kept.deliver (h : o.Kept dbms env me) (n : ℕ) :
    (o.step dbms env (.deliver n)).Kept dbms env me := by
  simp only [Office.step]
  split
  · rename_i answer hanswer
    have hhonest := h.answered answer (List.mem_of_getElem? hanswer)
    refine { h with
      session := (receive_session _ _).trans h.session
      page := h.page.receive answer fun response hr => ?_
      sent := fun call hcall => ?_
      answered := fun a ha => h.answered a (List.mem_of_mem_eraseIdx ha)
      secret := fun modal hm => ?_ }
    · subst hr
      exact hhonest response rfl
    · rcases List.mem_append.mp hcall with hold | hnew
      · exact h.sent call hold
      · exact absurd hnew (receive_messages _ _ _)
    · rcases receive_secret hm with hold | ⟨call,rfl,hreset,hname⟩
      · exact h.secret modal hold
      · obtain ⟨s,hs,rfl,hbody⟩ := hhonest _ rfl
        exact ⟨s,hs,hreset,hname,result_of_temporary hbody⟩
  · exact h

/-- One step of the page, the network, the server or anybody else. -/
theorem Office.Kept.step (h : o.Kept dbms env me) (x : Step) (hview : x.inView o = true) :
    (o.step dbms env x).Kept dbms env me := by
  cases x with
  | use e => exact h.use e hview
  | serve n ctx => exact h.serve n ctx
  | deliver n => exact h.deliver n
  | loseRequest n text =>
    simp only [Office.step]
    split
    · exact { h with
        sent := fun c hc => h.sent c (List.mem_of_mem_eraseIdx hc)
        answered := forall_mem_concat h.answered (honest_lostMessage text) }
    · exact h
  | loseAnswer n text =>
    simp only [Office.step]
    split
    · exact { h with
        answered := forall_mem_concat
          (fun answer ha => h.answered answer (List.mem_of_mem_eraseIdx ha)) (honest_lost text) }
    · exact h
  | other e => exact { h with wellFormed := event_wellFormed h.wellFormed e }

theorem Office.Kept.run (steps : List Step) (h : o.Kept dbms env me)
    (hview : ∀ p ∈ o.trace dbms env steps, p.2.inView p.1 = true) :
    (o.run dbms env steps).Kept dbms env me := by
  induction steps generalizing o with
  | nil => exact h
  | cons x steps ih =>
    exact ih (h.step x (hview (o,x) List.mem_cons_self)) fun p hp =>
      hview p (List.mem_cons_of_mem _ hp)

theorem Office.Kept.opened (me : MeResponse) (h : db.WellFormed) :
    (Office.opened me db).Kept dbms env me where
  session := rfl
  page := {
    connections := rfl
    users := fun user hu => (by cases hu)
    approve := forall_of_hidden rfl
    scope := forall_of_hidden rfl
    confirm := forall_of_hidden rfl }
  sent := fun call hcall => by simp [Office.opened] at hcall
  answered := fun answer ha => by cases ha
  served := fun s hs => by cases hs
  secret := forall_of_hidden rfl
  wellFormed := h

end
end UsersPage
end WzonePortal
