import WzonePortal.CollectionLock
import WzonePortal.PartialFailures

/-! The counts of a collection and the machines that it has passed to the repository. A sign-in
that is rejected in the middle of the listing ends in a summary of its own, without the batches
that are stored by then. -/
namespace WzonePortal

open VirtualMachineRepository CollectService LockScript

def UpsertResult.total (r : UpsertResult) : ℕ := r.created + r.updated + r.unchanged

def CollectService.CollectSummary.total (s : CollectSummary) : ℕ :=
  s.created + s.updated + s.unchanged

def passedBy : LockOp UUID CollectionStep → List VirtualMachine
  | .step (.upsert _ batch _) => batch
  | _ => []

/-- The machines that the statements of a run pass to the repository, one batch after another. -/
def passed (issued : List (LockOp UUID CollectionStep)) : List VirtualMachine :=
  issued.flatMap passedBy

section
variable {uuid4 : ℕ → UUID} {c : UUID} {t : Timestamp} {vm : VirtualMachine}
  {vms : List VirtualMachine}

theorem upsertOne_total {s s' : UpsertState} (h : upsertOne uuid4 c t s vm = .ok s') :
    s'.result.total = s.result.total + 1 := by
  rcases upsertOne_cases h with hi | ⟨m,changed,hu⟩
  · rw [hi.result]
    simp only [UpsertResult.total]
    omega
  · rw [hu.result]
    split <;> simp only [UpsertResult.total] <;> omega

theorem upsertAll_total {s s' : UpsertState} (h : upsertAll uuid4 c t vms s = .ok s') :
    s'.result.total = s.result.total + vms.length := by
  induction vms generalizing s with
  | nil =>
    cases h
    rfl
  | cons vm vms ih =>
    obtain ⟨mid,hone,hrest⟩ := bind_eq_ok.mp h
    have hmid := upsertOne_total hone
    have hend := ih hrest
    rw [List.length_cons]
    omega

theorem upsertVirtualMachines_total {db : Database} {stored : UpsertResult × Database}
    (h : upsertVirtualMachines uuid4 db c vms t = .ok stored) : stored.1.total = vms.length := by
  obtain ⟨s,hs,h⟩ := bind_eq_ok.mp h
  cases h
  have htotal := upsertAll_total hs
  simpa [UpsertResult.total] using htotal

end

theorem addCounts_total (a b : UpsertResult) : (addCounts a b).total = a.total + b.total := by
  simp only [addCounts,UpsertResult.total]
  omega

theorem passed_append (issued later : List (LockOp UUID CollectionStep)) :
    passed (issued ++ later) = passed issued ++ passed later := List.flatMap_append

theorem passed_singleton (o : LockOp UUID CollectionStep) : passed [o] = passedBy o :=
  List.flatMap_singleton ..

/-- A world, and what has been issued so far. -/
abbrev Traced : Type := World × List (LockOp UUID CollectionStep)

section
variable {env : Surroundings} {c : UUID} {t : Timestamp} {conn : Connection} {u : Traced}

theorem meets_quiet {s : CollectionStep} (hs : passedBy (.step s) = [])
    {Q : Except Raised s.Ans → Traced → Prop}
    (h : ∀ w v, passed v.2 = passed u.2 → Q (World.exec env (.step s) w).1 v) :
    (step s : Collection s.Ans).meets (Script.traced (World.exec env)) u Q := by
  refine Script.meets_perform (h _ _ ?_)
  change passed (u.2 ++ [.step s]) = passed u.2
  rw [passed_append,passed_singleton,hs,List.append_nil]

/-- A batch is passed in any case, and counted in full if it is stored. -/
theorem meets_upsert (hdriver : env.DriverErrors) (batch : List VirtualMachine) :
    (step (CollectionStep.upsert c batch t) : Collection UpsertResult).meets
      (Script.traced (World.exec env)) u fun x v => passed v.2 = passed u.2 ++ batch ∧
        (∀ stored, x = .ok stored → stored.total = batch.length) ∧
          ∀ message, x ≠ .error (.authentication message) := by
  refine Script.meets_perform ⟨?_,fun stored hstored => ?_,
    upsert_not_authentication hdriver c batch⟩
  · change passed (u.2 ++ [.step (.upsert c batch t)]) = _
    rw [passed_append,passed_singleton]
    rfl
  · change (World.exec env (.step (.upsert c batch t)) u.1).1 = .ok stored at hstored
    simp only [World.exec] at hstored
    split at hstored
    · cases hstored
    · simp only [World.perform] at hstored
      split at hstored
      · rename_i hupsert
        cases hstored
        exact upsertVirtualMachines_total hupsert
      · cases hstored

/-- What the loop over the machines has passed on, for its answer. -/
structure Batched (batchSize : ℤ) (ending : Option Raised) (counts : UpsertResult)
    (machines : List VirtualMachine) (x : Except Raised UpsertResult)
    (more : List VirtualMachine) : Prop where
  isPrefix : more <+: machines
  whole : ∀ counts', x = .ok counts' →
    ending = none ∧ more = machines ∧ counts'.total = counts.total + more.length
  rejected : ∀ message, x = .error (.authentication message) →
    ending ≠ none ∧ (more = [] ↔ (machines.length : ℤ) < batchSize)

theorem Batched.not_authentication {batchSize : ℤ} {ending : Option Raised} {counts : UpsertResult}
    {machines more : List VirtualMachine} {e : Raised} (he : ∀ message, e ≠ .authentication message)
    (hinit : more <+: machines) : Batched batchSize ending counts machines (.error e) more := by
  refine ⟨hinit,fun counts' h => ?_,fun message h => absurd (Except.error.inj h) (he message)⟩
  cases h

theorem Batched.flushed {batchSize : ℤ} {ending : Option Raised} {counts stored : UpsertResult}
    {batch machines more : List VirtualMachine} {x : Except Raised UpsertResult}
    (hbatch : batch ≠ []) (hfull : batchSize ≤ batch.length) (hstored : stored.total = batch.length)
    (h : Batched batchSize ending (addCounts counts stored) machines x more) :
    Batched batchSize ending counts (batch ++ machines) x (batch ++ more) := by
  refine ⟨(List.prefix_append_right_inj batch).mpr h.isPrefix,fun counts' hx => ?_,fun message hx => ?_⟩
  · obtain ⟨hending,hmore,htotal⟩ := h.whole counts' hx
    refine ⟨hending,congrArg _ hmore,?_⟩
    rw [htotal,addCounts_total,hstored,List.length_append]
    omega
  · refine ⟨(h.rejected message hx).1,iff_of_false ?_ ?_⟩
    · simp [hbatch]
    · rw [List.length_append]
      push_cast
      omega

theorem meets_storeBatches (hdriver : env.DriverErrors) {batchSize : ℤ} (ending : Option Raised)
    (vms batch : List VirtualMachine) (counts : UpsertResult)
    (hbatch : (batch.length : ℤ) < batchSize) :
    (storeBatches batchSize c t ending vms batch counts).meets (Script.traced (World.exec env)) u
      fun x v => ∃ more, passed v.2 = passed u.2 ++ more ∧
        Batched batchSize ending counts (batch ++ vms) x more := by
  induction vms generalizing batch counts u with
  | nil =>
    unfold storeBatches
    rw [List.append_nil]
    cases ending with
    | some e =>
      exact ⟨[],(List.append_nil _).symm,⟨List.nil_prefix,fun counts' h => (by cases h),
        fun message _ => ⟨Option.some_ne_none e,iff_of_true rfl hbatch⟩⟩⟩
    | none =>
      by_cases hnil : batch = []
      · rw [if_pos hnil,hnil]
        refine ⟨[],(List.append_nil _).symm,⟨List.nil_prefix,fun counts' h => ?_,fun message h => ?_⟩⟩
        · cases h
          exact ⟨rfl,rfl,rfl⟩
        · cases h
      · rw [if_neg hnil]
        refine Script.meets_bind (meets_upsert hdriver batch) ?_ ?_
        · rintro stored v ⟨hv,htotal,_⟩
          refine Script.meets_pure ⟨batch,hv,⟨List.prefix_refl _,fun counts' h => ?_,fun message h => ?_⟩⟩
          · cases h
            rw [addCounts_total,htotal stored rfl]
            exact ⟨rfl,rfl,rfl⟩
          · cases h
        · rintro e v ⟨hv,_,he⟩
          exact ⟨batch,hv,.not_authentication (fun message h => he message (congrArg _ h))
            (List.prefix_refl _)⟩
  | cons vm vms ih =>
    have hsplit : batch ++ vm::vms = batch ++ [vm] ++ vms := List.append_cons batch vm vms
    unfold storeBatches
    rw [hsplit]
    by_cases hfull : batchSize ≤ (batch ++ [vm]).length
    · rw [if_pos hfull]
      have hpos : (([] : List VirtualMachine).length : ℤ) < batchSize := by
        simp only [List.length_nil]
        omega
      refine Script.meets_bind (meets_upsert hdriver (batch ++ [vm])) ?_ ?_
      · rintro stored v ⟨hv,htotal,_⟩
        refine Script.meets_mono (ih [] (addCounts counts stored) hpos) ?_
        rintro x v' ⟨more,hv',h⟩
        refine ⟨batch ++ [vm] ++ more,?_,h.flushed (by simp) hfull (htotal stored rfl)⟩
        rw [hv',hv]
        simp only [List.append_assoc]
      · rintro e v ⟨hv,_,he⟩
        exact ⟨batch ++ [vm],hv,.not_authentication (fun message h => he message (congrArg _ h))
          (List.prefix_append _ _)⟩
    · rw [if_neg hfull]
      exact ih (batch ++ [vm]) counts (not_le.mp hfull)

/-- What the listing has passed on when the reader is closed. -/
structure Listed (batchSize : ℤ) (listing : Listing) (x : Except Raised (CollectSummary ⊕ UpsertResult))
    (more : List VirtualMachine) : Prop where
  isPrefix : more <+: listing.vms
  whole : ∀ counts, x = .ok (.inr counts) →
    listing.ending = none ∧ more = listing.vms ∧ counts.total = more.length
  rejected : ∀ summary, x = .ok (.inl summary) → listing.ending ≠ none ∧ summary.total = 0 ∧
    (more = [] ↔ (listing.vms.length : ℤ) < batchSize)

theorem Listed.of_error {batchSize : ℤ} {listing : Listing} {more : List VirtualMachine}
    (h : more <+: listing.vms) (e : Raised) : Listed batchSize listing (.error e) more :=
  ⟨h,fun counts hx => (by cases hx),fun summary hx => (by cases hx)⟩

theorem Listed.closed {batchSize : ℤ} {listing : Listing} {more : List VirtualMachine}
    {x : Except Raised (CollectSummary ⊕ UpsertResult)} (h : Listed batchSize listing x more)
    (y : Except Raised Unit) : Listed batchSize listing (y >>= fun _ => x) more := by
  cases y with
  | error e => exact .of_error h.isPrefix e
  | ok _ => exact h

theorem meets_list (hdriver : env.DriverErrors) :
    (step CollectionStep.listVirtualMachines : Collection Listing).meets
      (Script.traced (World.exec env)) u fun x v => passed v.2 = passed u.2 ∧
        (∀ listing, x = .ok listing → listing = env.listing) ∧
          ∀ message, x ≠ .error (.authentication message) := by
  refine meets_quiet rfl fun w v hv => ⟨hv,?_⟩
  simp only [World.exec]
  split
  · rename_i e he
    refine ⟨fun listing h => (by cases h),fun message h => ?_⟩
    cases h
    refine hdriver.fault _ _ message (fun conn h => ?_) he
    cases h
  · exact ⟨fun listing h => (Except.ok.inj h).symm,fun message h => (by cases h)⟩

/-- The machines of the listing, before the handler of a rejected sign-in. -/
theorem meets_listed (hdriver : env.DriverErrors) {batchSize : ℤ} (hbatch : 1 ≤ batchSize) :
    (do
      let listing ← step CollectionStep.listVirtualMachines
      let counts ← storeBatches batchSize c t listing.ending listing.vms [] ⟨0,0,0⟩
      pure (.inr counts) : Collection (CollectSummary ⊕ UpsertResult)).meets
        (Script.traced (World.exec env)) u fun x v => ∃ more, passed v.2 = passed u.2 ++ more ∧
          more <+: env.listing.vms ∧ (∀ a, x = .ok a → Listed batchSize env.listing x more) ∧
            ∀ message, x = .error (.authentication message) → env.listing.ending ≠ none ∧
              (more = [] ↔ (env.listing.vms.length : ℤ) < batchSize) := by
  have hempty : (([] : List VirtualMachine).length : ℤ) < batchSize := by
    simp only [List.length_nil]
    omega
  refine Script.meets_bind (meets_list hdriver) ?_ ?_
  · rintro listing v ⟨hv,hlisting,_⟩
    rw [hlisting listing rfl]
    refine Script.meets_bind (meets_storeBatches hdriver env.listing.ending env.listing.vms []
      ⟨0,0,0⟩ hempty) ?_ ?_
    · rintro counts v' ⟨more,hv',h⟩
      rw [List.nil_append] at h
      refine Script.meets_pure ⟨more,by rw [hv',hv],h.isPrefix,fun a ha => ?_,fun message hx => ?_⟩
      · refine ⟨h.isPrefix,fun counts' hx => ?_,fun summary hx => ?_⟩
        · cases hx
          obtain ⟨hending,hmore,htotal⟩ := h.whole counts rfl
          refine ⟨hending,hmore,?_⟩
          rw [htotal]
          exact Nat.zero_add _
        · cases hx
      · cases hx
    · rintro e v' ⟨more,hv',h⟩
      rw [List.nil_append] at h
      refine ⟨more,by rw [hv',hv],h.isPrefix,fun a ha => (by cases ha),fun message hx => ?_⟩
      cases hx
      exact h.rejected message rfl
  · rintro e v ⟨hv,_,he⟩
    refine ⟨[],by rw [hv,List.append_nil],List.nil_prefix,fun a ha => (by cases ha),
      fun message hx => ?_⟩
    cases hx
    exact absurd rfl (he message)

theorem meets_storeMachines_counted (hdriver : env.DriverErrors) {batchSize : ℤ}
    (hbatch : 1 ≤ batchSize) :
    (storeMachines batchSize c t).meets (Script.traced (World.exec env)) u fun x v =>
      ∃ more, passed v.2 = passed u.2 ++ more ∧ Listed batchSize env.listing x more := by
  refine Script.meets_tryCatch (meets_listed hdriver hbatch) ?_ ?_
  · rintro a v ⟨more,hv,_,hok,_⟩
    exact ⟨more,hv,hok a rfl⟩
  · rintro e v ⟨more,hv,hinit,_,hrejected⟩
    cases e with
    | authentication message =>
      refine Script.meets_bind (R:=fun _ v' => passed v'.2 = passed v.2)
        (meets_quiet rfl fun _ _ h => h) ?_ fun e v' hv' =>
          ⟨more,by rw [hv',hv],.of_error hinit e⟩
      intro _ v' hv'
      refine Script.meets_pure ⟨more,by rw [hv',hv],hinit,fun counts hx => (by cases hx),
        fun summary hx => ?_⟩
      cases hx
      obtain ⟨hending,hmore⟩ := hrejected message rfl
      exact ⟨hending,rfl,hmore⟩
    | _ => exact Script.meets_throw ⟨more,hv,.of_error hinit _⟩

theorem meets_conclude_total (counts : UpsertResult) :
    (conclude c t counts).meets (Script.traced (World.exec env)) u fun x v =>
      passed v.2 = passed u.2 ∧ ∀ summary, x = .ok summary → summary.total = counts.total := by
  have hquiet : ∀ {s : CollectionStep} {v : Traced} {f : s.Ans → Collection CollectSummary},
      passedBy (.step s) = [] → passed v.2 = passed u.2 →
      (∀ a v', passed v'.2 = passed u.2 → (f a).meets (Script.traced (World.exec env)) v'
        fun x v => passed v.2 = passed u.2 ∧
          ∀ summary, x = .ok summary → summary.total = counts.total) →
      (step s >>= f).meets (Script.traced (World.exec env)) v fun x v =>
        passed v.2 = passed u.2 ∧ ∀ summary, x = .ok summary → summary.total = counts.total := by
    intro s v f hs hv hf
    refine Script.meets_bind (R:=fun _ v' => passed v'.2 = passed u.2)
      (meets_quiet hs fun _ _ h => h.trans hv) hf fun e v' hv' => ⟨hv',fun summary h => ?_⟩
    cases h
  refine hquiet (s:=.log .run) rfl rfl fun _ v₁ h₁ => ?_
  refine hquiet (s:=.getOutcomes) rfl h₁ fun outcomes v₂ h₂ => ?_
  split
  · refine hquiet (s:=.markFailure ..) rfl h₂ fun _ v₃ h₃ => Script.meets_pure ⟨h₃,fun summary h => ?_⟩
    cases h
    rfl
  · refine hquiet (s:=.markSuccess ..) rfl h₂ fun _ v₃ h₃ => Script.meets_pure ⟨h₃,fun summary h => ?_⟩
    cases h
    rfl

/-- The counts of the summary, against the machines that were passed on. -/
structure Summarised (batchSize : ℤ) (listing : Listing) (x : Except Raised CollectSummary)
    (more : List VirtualMachine) : Prop where
  isPrefix : more <+: listing.vms
  whole : ∀ summary, x = .ok summary → listing.ending = none → more = listing.vms
  total : ∀ summary, x = .ok summary → (summary.total = more.length ↔
    ¬ (listing.ending ≠ none ∧ batchSize ≤ listing.vms.length))

theorem Summarised.of_error {batchSize : ℤ} {listing : Listing} {more : List VirtualMachine}
    (h : more <+: listing.vms) (e : Raised) : Summarised batchSize listing (.error e) more :=
  ⟨h,fun summary hx => (by cases hx),fun summary hx => (by cases hx)⟩

theorem Listed.summarised_inl {batchSize : ℤ} {listing : Listing} {more : List VirtualMachine}
    {summary : CollectSummary} (h : Listed batchSize listing (.ok (.inl summary)) more) :
    Summarised batchSize listing (.ok summary) more := by
  obtain ⟨hending,htotal,hmore⟩ := h.rejected summary rfl
  refine ⟨h.isPrefix,fun _ _ hnone => absurd hnone hending,fun s hs => ?_⟩
  cases hs
  rw [htotal,eq_comm,List.length_eq_zero_iff,hmore]
  simp [hending]

theorem Listed.summarised_inr {batchSize : ℤ} {listing : Listing} {more : List VirtualMachine}
    {counts : UpsertResult} (h : Listed batchSize listing (.ok (.inr counts)) more)
    {x : Except Raised CollectSummary} (hx : ∀ summary, x = .ok summary → summary.total = counts.total) :
    Summarised batchSize listing x more := by
  obtain ⟨hending,hmore,htotal⟩ := h.whole counts rfl
  refine ⟨h.isPrefix,fun _ _ _ => hmore,fun summary hsummary => ?_⟩
  exact iff_of_true ((hx summary hsummary).trans htotal) fun hbroken => hbroken.1 hending

theorem meets_collect_counted (hdriver : env.DriverErrors)
    (hstart : ∀ n conn, env.fault n (.startSession conn) = none) {batchSize : ℤ}
    (hbatch : 1 ≤ batchSize) :
    (collect batchSize conn).meets (Script.traced (World.exec env)) u fun x v =>
      ∃ more, passed v.2 = passed u.2 ++ more ∧ Summarised batchSize env.listing x more := by
  have herror : ∀ (e : Raised) (v : Traced), passed v.2 = passed u.2 → ∃ more,
      passed v.2 = passed u.2 ++ more ∧ Summarised batchSize env.listing (.error e) more :=
    fun e v hv => ⟨[],by rw [hv,List.append_nil],.of_error List.nil_prefix e⟩
  refine Script.meets_bind (R:=fun _ v => passed v.2 = passed u.2)
    (meets_quiet rfl fun _ _ h => h) ?_ herror
  intro observedAt v₁ h₁
  refine Script.meets_bind (R:=fun _ v => passed v.2 = passed u.2)
    (meets_quiet rfl fun _ _ h => h.trans h₁) ?_ herror
  intro _ v₂ h₂
  refine Script.meets_bind (R:=fun x v => passed v.2 = passed u.2 ∧ x = .ok (.ok ()))
    (Script.meets_attempt (meets_quiet rfl fun w v h => ⟨h.trans h₂,?_⟩)) ?_ fun e v hv => herror e v hv.1
  · simp only [World.exec,World.perform,hstart]
  · rintro signedIn v₃ ⟨h₃,hsignedIn⟩
    cases hsignedIn
    have hclosed : (Script.tryFinally (storeMachines batchSize conn.connectionId observedAt)
        (step CollectionStep.closeReader)).meets (Script.traced (World.exec env)) v₃ fun x v =>
          ∃ more, passed v.2 = passed v₃.2 ++ more ∧ Listed batchSize env.listing x more := by
      refine Script.meets_tryFinally (meets_storeMachines_counted hdriver hbatch) ?_
      rintro x v ⟨more,hv,hlisted⟩
      exact meets_quiet rfl fun _ _ h => ⟨more,h.trans hv,hlisted.closed _⟩
    refine Script.meets_bind hclosed ?_ ?_
    · rintro stored v ⟨more,hv,hlisted⟩
      cases stored with
      | inl summary => exact Script.meets_pure ⟨more,by rw [hv,h₃],hlisted.summarised_inl⟩
      | inr counts =>
        refine Script.meets_mono (meets_conclude_total counts) fun x v' hv' => ?_
        exact ⟨more,by rw [hv'.1,hv,h₃],hlisted.summarised_inr hv'.2⟩
    · rintro e v ⟨more,hv,hlisted⟩
      exact ⟨more,by rw [hv,h₃],.of_error hlisted.isPrefix e⟩

end

/-- The machines that a collection passes on are the first ones of the listing, and all of them
if the listing comes to its end. The summary counts them, unless the sign-in is rejected after a
full batch. -/
theorem summary_counts_passed_iff (env : Surroundings) (hdriver : env.DriverErrors)
    (hstart : ∀ n conn, env.fault n (.startSession conn) = none) (batchSize : ℤ)
    (hbatch : 1 ≤ batchSize) (conn : Connection) (w : World) :
    let r := (collect batchSize conn).run (Script.traced (World.exec env)) (w,[])
    passed r.2.2 <+: env.listing.vms ∧ ∀ summary, r.1 = .ok summary →
      (env.listing.ending = none → passed r.2.2 = env.listing.vms) ∧
      (summary.created + summary.updated + summary.unchanged = (passed r.2.2).length ↔
        ¬ (env.listing.ending ≠ none ∧ batchSize ≤ env.listing.vms.length)) := by
  intro r
  obtain ⟨more,hpassed,h⟩ := (meets_collect_counted hdriver hstart hbatch :
    (collect batchSize conn).meets (Script.traced (World.exec env)) (w,[]) _)
  have hr : passed r.2.2 = more := hpassed.trans (List.nil_append more)
  rw [hr]
  exact ⟨h.isPrefix,fun summary hsummary => ⟨h.whole summary hsummary,h.total summary hsummary⟩⟩

def storedMachine : VirtualMachine where
  resourceId := 1
  connectionId := 7
  nativeId := "vm-1"
  name := "one"

def oneListed : Surroundings := { calm with listing := ⟨[storedMachine],none⟩ }

theorem oneListed_driverErrors : oneListed.DriverErrors :=
  ⟨fun _ _ _ _ h => (by cases h),fun _ _ h => (by cases h)⟩

theorem summary_counts_passed_sample :
    let r := (collect 1 CollectionLock.someConnection).run (Script.traced (World.exec oneListed))
      (World.fresh {7} emptyStore,[])
    ∀ summary, r.1 = .ok summary → passed r.2.2 = [storedMachine] ∧
      summary.created + summary.updated + summary.unchanged = (passed r.2.2).length := by
  intro r summary hsummary
  obtain ⟨hwhole,htotal⟩ := (summary_counts_passed_iff oneListed oneListed_driverErrors
    (fun _ _ => rfl) 1 (by decide) CollectionLock.someConnection (World.fresh {7} emptyStore)).2
    summary hsummary
  exact ⟨hwhole rfl,htotal.mpr fun hbroken => hbroken.1 rfl⟩

def rejectedAfterOne : Surroundings :=
  { calm with listing := ⟨[storedMachine],some (.authentication "인증에 실패했습니다.")⟩ }

/-- A machine is passed on and counted nowhere. -/
theorem rejected_listing_counts_nothing :
    let r := (collect 1 CollectionLock.someConnection).run (Script.traced (World.exec rejectedAfterOne))
      (World.fresh {7} emptyStore,[])
    r.1 = .ok (CollectService.failure 7 "인증에 실패했습니다.") ∧ passed r.2.2 = [storedMachine] :=
  ⟨by decide +kernel,by decide +kernel⟩

end WzonePortal
