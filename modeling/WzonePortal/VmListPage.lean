import WzonePortal.InventoryPages

/-! The page with the list of machines. A click changes what the page is asked to show and sends
a request; an answer is shown whenever it arrives, beside the filter and the page number of that
moment. Which answer arrived under which view is recorded beside the state. -/
namespace WzonePortal
namespace VmListPage

def PAGE_SIZE : ℕ := 50

/-- What a list is asked for: `view.connectionId` and `view.page`. -/
structure Query (C : Type) where
  connectionId : Option C
  page : ℕ
  deriving DecidableEq

@[ext] structure Answer (α : Type) where
  items : List α
  total : ℕ
  deriving DecidableEq

structure Pager where
  hidden : Bool
  first : ℕ
  last : ℤ
  total : ℕ
  prevDisabled : Bool
  nextDisabled : Bool
  deriving DecidableEq

/-- What a rendering leaves on the page. -/
structure Rendered (α : Type) where
  rows : List α
  pager : Pager
  vmCount : ℕ × Option ℕ
  navCount : ℕ
  deriving DecidableEq

structure View (C α : Type) where
  connectionId : Option C := none
  page : ℕ := 1
  total : ℕ := 0
  totalAll : ℕ := 0
  rendered : Option (Rendered α) := none
  listening : Bool := false
  requests : List (Query C × Bool) := []
  arrivals : List (Query C × Query C) := []
  deriving DecidableEq

inductive ListEvent (C : Type)
  | filter (connectionId : Option C)
  | previous
  | next
  | arrive (n : ℕ)

section
variable {C α : Type}

/-- The machines of each connection, and all of them. -/
abbrev Store (C α : Type) : Type := Option C → List α

def serve (store : Store C α) (q : Query C) : Answer α where
  items := slice ((q.page-1)*PAGE_SIZE) PAGE_SIZE (store q.connectionId)
  total := (store q.connectionId).length

def lastPage (total : ℕ) : ℕ := max 1 ((total+PAGE_SIZE-1)/PAGE_SIZE)

def renderPager (page total shown : ℕ) : Pager :=
  let first := if total = 0 then 0 else (page-1)*PAGE_SIZE+1
  { hidden := total ≤ PAGE_SIZE
    first := first
    last := first+shown-1
    total := total
    prevDisabled := page ≤ 1
    nextDisabled := lastPage total ≤ page }

namespace View

def query (v : View C α) : Query C := ⟨v.connectionId,v.page⟩

/-- `loadVirtualMachines` up to its `await`; `init` goes on after the first one. -/
def load (initial : Bool) (v : View C α) : View C α :=
  { v with requests := v.requests ++ [(v.query,initial)] }

/-- The rest of `loadVirtualMachines`. -/
def receive (store : Store C α) (q : Query C) (initial : Bool) (v : View C α) : View C α :=
  let res := serve store q
  let totalAll := if v.connectionId.isNone then res.total else v.totalAll
  { v with
    total := res.total
    totalAll := totalAll
    rendered := some {
      rows := res.items
      pager := renderPager v.page res.total res.items.length
      vmCount := (res.total,if v.connectionId.isNone then none else some totalAll)
      navCount := totalAll }
    listening := v.listening || initial
    arrivals := (q,v.query)::v.arrivals }

def clickable (disabled : Pager → Bool) (v : View C α) : Bool :=
  v.listening && v.rendered.any fun shown => !shown.pager.hidden && !disabled shown.pager

variable [DecidableEq C]

/-- The buttons of the filter; one connection leaves nothing to choose. -/
def offered (connections : List C) (connectionId : Option C) : Bool :=
  1 < connections.length && connectionId.all fun c => c ∈ connections

def step (connections : List C) (store : Store C α) (v : View C α) : ListEvent C → View C α
  | .filter connectionId =>
    if offered connections connectionId then
      load false { v with connectionId := connectionId, page := 1 }
    else v
  | .previous =>
    if v.clickable Pager.prevDisabled && v.page > 1 then load false { v with page := v.page-1 }
    else v
  | .next =>
    if v.clickable Pager.nextDisabled && v.page < lastPage v.total then
      load false { v with page := v.page+1 }
    else v
  | .arrive n => match v.requests[n]? with
    | none => v
    | some (q,initial) =>
      receive store q initial { v with requests := v.requests.eraseIdx n }

/-- The page after the events, first one first; `init` has sent the first request. -/
def run (connections : List C) (store : Store C α) (events : List (ListEvent C)) : View C α :=
  events.foldl (step connections store) (load true {})

end View

/-- The page shows what its view asks for. -/
def Right (store : Store C α) (v : View C α) : Prop :=
  (∃ shown, v.rendered = some shown ∧ shown.rows = (serve store v.query).items ∧
    shown.pager = renderPager v.page (serve store v.query).total
      (serve store v.query).items.length) ∧
  v.total = (serve store v.query).total ∧ v.totalAll = (store none).length

/-- The answer that arrived last says what the answer to the view's request would. -/
def LastIsCurrent (store : Store C α) (v : View C α) : Prop :=
  ∃ a ∈ v.arrivals.head?, serve store a.1 = serve store v.query

/-- The last answer that arrived while no connection was chosen has the number of all machines. -/
def AllCounted (store : Store C α) (v : View C α) : Prop :=
  (v.arrivals.find? fun a => a.2.connectionId.isNone).elim 0
    (fun a => (store a.1.connectionId).length) = (store none).length

/-- What the record says about the state. -/
structure Recorded (store : Store C α) (v : View C α) : Prop where
  shown : ∀ a ∈ v.arrivals.head?, v.total = (serve store a.1).total ∧
    ∃ shown, v.rendered = some shown ∧ shown.rows = (serve store a.1).items ∧
      shown.pager = renderPager a.2.page (serve store a.1).total (serve store a.1).items.length
  settled : v.requests = [] → ∃ a ∈ v.arrivals.head?, a.2 = v.query
  counted : v.totalAll = (v.arrivals.find? fun a => a.2.connectionId.isNone).elim 0
    fun a => (store a.1.connectionId).length
  first : (∃ r ∈ v.requests, r.1 = ⟨none,1⟩) ∨ ∃ a ∈ v.arrivals, a.1 = ⟨none,1⟩

variable {store : Store C α} {v : View C α}

theorem Recorded.load (h : Recorded store v) (connectionId : Option C) (page : ℕ)
    (initial : Bool) :
    Recorded store (View.load initial { v with connectionId := connectionId, page := page }) where
  shown := h.shown
  settled := fun hnone => absurd hnone (by simp [View.load])
  counted := h.counted
  first := h.first.imp_left fun ⟨r,hr,he⟩ => ⟨r,List.mem_append_left _ hr,he⟩

theorem mem_eraseIdx_or {β : Type} {l : List β} {n : ℕ} {a b : β} (ha : a ∈ l)
    (hb : l[n]? = some b) : a ∈ l.eraseIdx n ∨ a = b := by
  obtain ⟨m,hm⟩ := List.mem_iff_getElem?.mp ha
  by_cases hmn : m = n
  · subst hmn
    exact .inr (Option.some.inj (hm.symm.trans hb))
  · exact .inl (List.mem_eraseIdx_iff_getElem?.mpr ⟨m,hmn,hm⟩)

theorem Recorded.receive (h : Recorded store v) {n : ℕ} {q : Query C} {initial : Bool}
    (hn : v.requests[n]? = some (q,initial)) :
    Recorded store
      (View.receive store q initial { v with requests := v.requests.eraseIdx n }) where
  shown := by
    intro a ha
    obtain rfl : (q,v.query) = a := Option.some.inj ha
    exact ⟨rfl,_,rfl,rfl,rfl⟩
  settled := fun _ => ⟨_,rfl,rfl⟩
  counted := by
    have hcounted := h.counted
    cases hc : v.connectionId <;> simp [View.receive,View.query,serve,hcounted]
  first := by
    rcases h.first with ⟨r,hr,he⟩ | ⟨a,ha,he⟩
    · rcases mem_eraseIdx_or hr hn with herase | rfl
      · exact .inl ⟨r,herase,he⟩
      · exact .inr ⟨_,List.mem_cons_self,he⟩
    · exact .inr ⟨a,List.mem_cons_of_mem _ ha,he⟩

theorem recorded_start (store : Store C α) : Recorded store (View.load true {}) where
  shown := fun _ ha => absurd ha (by simp [View.load])
  settled := fun hnone => absurd hnone (by simp [View.load])
  counted := rfl
  first := .inl ⟨_,List.mem_singleton_self _,rfl⟩

/-- With nothing under way, the page is right exactly when the last answers are. -/
theorem Recorded.right_iff (h : Recorded store v) (hquiet : v.requests = []) :
    Right store v ↔ LastIsCurrent store v ∧ AllCounted store v := by
  obtain ⟨a,ha,hquery⟩ := h.settled hquiet
  obtain ⟨htotal,shown,hrendered,hrows,hpager⟩ := h.shown a ha
  have hall : AllCounted store v ↔ v.totalAll = (store none).length := by
    rw [AllCounted,h.counted]
  rw [hall]
  constructor
  · rintro ⟨⟨shown',hrendered',hrows',_⟩,htotal',htotalAll⟩
    obtain rfl := Option.some.inj (hrendered'.symm.trans hrendered)
    have hserve : serve store a.1 = serve store v.query :=
      Answer.ext (hrows.symm.trans hrows') (htotal.symm.trans htotal')
    exact ⟨⟨a,ha,hserve⟩,htotalAll⟩
  · rintro ⟨⟨b,hb,hserve⟩,htotalAll⟩
    obtain rfl : a = b := Option.some.inj (ha.symm.trans hb)
    rw [hquery,hserve] at hpager
    exact ⟨⟨shown,hrendered,hserve ▸ hrows,hpager⟩,hserve ▸ htotal,htotalAll⟩

theorem Recorded.right_of_timely (h : Recorded store v) (hquiet : v.requests = [])
    (hsame : ∀ a ∈ v.arrivals, a.1 = a.2) : Right store v := by
  refine (h.right_iff hquiet).mpr ⟨?_,?_⟩
  · obtain ⟨a,ha,hquery⟩ := h.settled hquiet
    exact ⟨a,ha,by rw [hsame a (List.mem_of_mem_head? ha),hquery]⟩
  · have hfirst : ∃ a ∈ v.arrivals, a.1 = ⟨none,1⟩ :=
      h.first.resolve_left (by simp [hquiet])
    obtain ⟨a,ha,he⟩ := hfirst
    have hsome : (v.arrivals.find? fun a => a.2.connectionId.isNone).isSome :=
      List.find?_isSome.mpr ⟨a,ha,by rw [← hsame a ha,he]; rfl⟩
    obtain ⟨b,hb⟩ := Option.isSome_iff_exists.mp hsome
    have hnone : b.2.connectionId = none := by simpa using List.find?_some hb
    rw [AllCounted,hb,Option.elim_some,hsame b (List.mem_of_find?_eq_some hb),hnone]

variable [DecidableEq C] {connections : List C}

theorem Recorded.step (h : Recorded store v) (e : ListEvent C) :
    Recorded store (v.step connections store e) := by
  cases e with
  | filter connectionId =>
    simp only [View.step]
    split_ifs
    · exact h.load connectionId 1 false
    · exact h
  | previous =>
    simp only [View.step]
    split_ifs
    · exact h.load v.connectionId (v.page-1) false
    · exact h
  | next =>
    simp only [View.step]
    split_ifs
    · exact h.load v.connectionId (v.page+1) false
    · exact h
  | arrive n =>
    cases hn : v.requests[n]? with
    | none => simpa only [View.step,hn] using h
    | some r => simpa only [View.step,hn] using h.receive hn

theorem recorded_run (connections : List C) (store : Store C α) (events : List (ListEvent C)) :
    Recorded store (View.run connections store events) := by
  induction events using List.reverseRecOn with
  | nil => exact recorded_start store
  | append_singleton events e ih =>
    rw [View.run,List.foldl_append]
    exact ih.step e

/-- Every answer of the run arrives while the view is still the one it was asked for. -/
def Timely (connections : List C) (store : Store C α) (events : List (ListEvent C)) : Prop :=
  ∀ before n after, events = before ++ .arrive n::after →
    ∀ r, (View.run connections store before).requests[n]? = some r →
      r.1 = (View.run connections store before).query

theorem arrivals_step {e : ListEvent C}
    (he : ∀ n, e = .arrive n → ∀ r, v.requests[n]? = some r → r.1 = v.query)
    (h : ∀ a ∈ v.arrivals, a.1 = a.2) : ∀ a ∈ (v.step connections store e).arrivals, a.1 = a.2 := by
  cases e with
  | filter | previous | next =>
    simp only [View.step]
    split_ifs <;> exact h
  | arrive n =>
    cases hn : v.requests[n]? with
    | none => simpa only [View.step,hn] using h
    | some r =>
      have hr := he n rfl r hn
      simp only [View.step,hn]
      exact List.forall_mem_cons.mpr ⟨hr,h⟩

theorem arrivals_of_timely {events : List (ListEvent C)} (h : Timely connections store events) :
    ∀ a ∈ (View.run connections store events).arrivals, a.1 = a.2 := by
  induction events using List.reverseRecOn with
  | nil => exact fun a ha => absurd ha List.not_mem_nil
  | append_singleton events e ih =>
    rw [View.run,List.foldl_append]
    refine arrivals_step (fun n he r hr => h events n [] (by rw [he]) r hr) (ih ?_)
    intro before n after hsplit
    exact h before n (after ++ [e]) (by rw [hsplit,List.append_assoc,List.cons_append])

/-- Once everything is answered, the page shows what was last asked for exactly when the answer
that arrived last is the one for that and the last one under no connection was unfiltered, as
after every timely run. -/
theorem list_shows_view_iff (connections : List C) (store : Store C α)
    (events : List (ListEvent C)) (hquiet : (View.run connections store events).requests = []) :
    (Right store (View.run connections store events) ↔
      LastIsCurrent store (View.run connections store events) ∧
        AllCounted store (View.run connections store events)) ∧
    (Timely connections store events → Right store (View.run connections store events)) :=
  ⟨(recorded_run connections store events).right_iff hquiet,
    fun h => (recorded_run connections store events).right_of_timely hquiet
      (arrivals_of_timely h)⟩

end

section
open VirtualMachineRepository
variable (cmp : Comparison) (db : Database) (scope : AccessScope)

def portalStore : Store UUID VmSummary :=
  fun connectionId => listing cmp db scope connectionId .name false

def Query.toPage (q : Query UUID) : Page :=
  { offset := (((q.page-1)*PAGE_SIZE : ℕ) : ℤ), limit := PAGE_SIZE }

theorem portalStore_length (connectionId : Option UUID) :
    (portalStore cmp db scope connectionId).length = (searchBase db scope connectionId).length := by
  rw [portalStore,listing,List.length_map]
  exact (TotalPreorder.orderBy_perm _ _ _ _).length_eq

theorem portalStore_of_not_canAccess {c : UUID} (h : scope.canAccess c = false) :
    portalStore cmp db scope (some c) = [] := by
  have hnone : ∀ r ∈ db.virtualMachines.rows, ¬ searched scope (some c) r = true := by
    intro r _ hs
    rw [searched_eq_visible] at hs
    simp only [visible,Option.all_some,Bool.and_eq_true,decide_eq_true_eq] at hs
    obtain ⟨⟨_,haccess⟩,rfl⟩ := hs
    exact Bool.false_ne_true (h.symm.trans haccess)
  rw [← List.length_eq_zero_iff,portalStore_length,searchBase,List.filter_eq_nil_iff.mpr hnone]
  rfl

/-- The service of the portal answers each request as the store of the page does. -/
theorem listVirtualMachines_eq_serve (hread : scope.require .resourceRead = .ok ())
    (q : Query UUID) :
    InventoryQueryService.listVirtualMachines cmp db scope q.connectionId q.toPage = .ok {
      items := (serve (portalStore cmp db scope) q).items
      total := (serve (portalStore cmp db scope) q).total
      page := q.toPage } := by
  have hvalid : q.toPage.validate = .ok () := by
    have hlimit : (1 : ℤ) ≤ (PAGE_SIZE : ℤ) ∧ (PAGE_SIZE : ℤ) ≤ Page.maxLimit := by decide
    have hsort : "name" ∈ Page.allowedSort := by decide
    exact Page.validate_eq_ok.mpr ⟨Int.natCast_nonneg _,hlimit.1,hlimit.2,hsort⟩
  unfold InventoryQueryService.listVirtualMachines
  rw [hread,hvalid]
  by_cases hout : (q.connectionId.any fun c => !scope.canAccess c) = true
  · obtain ⟨c,hc,haccess⟩ := (Option.any_eq_true _ _).mp hout
    have hnil : portalStore cmp db scope q.connectionId = [] := by
      rw [hc]
      exact portalStore_of_not_canAccess cmp db scope (by simpa using haccess)
    simp [hout,serve,hnil,slice]
    rfl
  · simp only [hout]
    refine (searchVms_eq_slice hvalid rfl).trans ?_
    rw [serve,← portalStore_length cmp]
    rfl

end

def threeMachines : Store ℕ ℕ
  | none => [11,12,21]
  | some 1 => [11,12]
  | some 2 => [21]
  | some _ => []

def oneFilter : List (ListEvent ℕ) := [.arrive 0,.filter (some 2),.arrive 0]

theorem timely_oneFilter : Timely [1,2] threeMachines oneFilter := by
  intro before n after hsplit r hr
  rcases before with _ | ⟨e,_ | ⟨f,_ | ⟨g,before⟩⟩⟩
  · obtain ⟨rfl,-⟩ : 0 = n ∧ _ := by simpa [oneFilter] using hsplit
    obtain rfl : (⟨none,1⟩,true) = r := Option.some.inj hr
    rfl
  · simp [oneFilter] at hsplit
  · obtain ⟨rfl,rfl,rfl,-⟩ :
        ListEvent.arrive 0 = e ∧ ListEvent.filter (some 2) = f ∧ 0 = n ∧ _ := by
      simpa [oneFilter] using hsplit
    obtain rfl : (⟨some 2,1⟩,false) = r := Option.some.inj hr
    rfl
  · simp [oneFilter] at hsplit

theorem list_shows_view_iff_filtered :
    Right threeMachines (View.run [1,2] threeMachines oneFilter) ∧
      AllCounted threeMachines (View.run [1,2] threeMachines oneFilter) := by
  obtain ⟨hiff,htimely⟩ := list_shows_view_iff [1,2] threeMachines oneFilter (by decide)
  exact ⟨htimely timely_oneFilter,(hiff.mp (htimely timely_oneFilter)).2⟩

/-- The answer to the first request comes last: the rows of all connections stand under the
filter of one. -/
def lateAnswer : List (ListEvent ℕ) := [.filter (some 2),.arrive 1,.arrive 0]

/-- The answers come in order, the first one after the click: nothing is counted as all. -/
def earlyFilter : List (ListEvent ℕ) := [.filter (some 2),.arrive 0,.arrive 0]

theorem late_answer_overwrites :
    ((View.run [1,2] threeMachines lateAnswer).requests = [] ∧
      (View.run [1,2] threeMachines lateAnswer).query = ⟨some 2,1⟩ ∧
      (View.run [1,2] threeMachines lateAnswer).rendered.map Rendered.rows = some [11,12,21] ∧
      ¬ Right threeMachines (View.run [1,2] threeMachines lateAnswer)) ∧
    (View.run [1,2] threeMachines earlyFilter).requests = [] ∧
      (View.run [1,2] threeMachines earlyFilter).totalAll = 0 ∧
      ¬ Right threeMachines (View.run [1,2] threeMachines earlyFilter) :=
  ⟨⟨by decide,by decide,by decide,fun h => absurd h.2.1 (by decide)⟩,
    by decide,by decide,fun h => absurd h.2.2 (by decide)⟩

end VmListPage
end WzonePortal
