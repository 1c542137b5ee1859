import WzonePortal.OsCell
import WzonePortal.ScopedHistory

/-! What a listed machine says of the history that it comes from. Its row is determined by the
sightings that the stored collections made of it: the values of the last one, the guest values
of the last one that reached the guest, and the times of the first and the last. -/
namespace WzonePortal

open VirtualMachineRepository

/-- One observation of a machine in a collection, with the time of the collection. -/
structure Sighting where
  vm : VirtualMachine
  seenAt : Timestamp
  deriving DecidableEq

def VirtualMachineRepository.UpsertCall.sightings (call : UpsertCall) (k : UUID × String) :
    List Sighting :=
  (call.vms.filter fun vm => vm.key = k).map fun vm => ⟨vm,call.observedAt⟩

def PortalEvent.sightings (k : UUID × String) (db : Database) : PortalEvent → List Sighting
  | .collect call => match call.run db with
    | .ok _ => call.sightings k
    | .error _ => []
  | _ => []

/-- The stored sightings of one machine in a history, oldest first. -/
def sightings (dbms : Dbms) (env : Env) (k : UUID × String) :
    List PortalEvent → Database → List Sighting
  | [], _ => []
  | e::events, db => e.sightings k db ++ sightings dbms env k events (e.run dbms env db)

def lastCollected (seen : List Sighting) : Option Sighting :=
  (seen.filter fun s => s.vm.guest.availability = .available).getLast?

/-- The row of a machine, from its sightings. -/
def storedRow (id : UUID) (first : Sighting) (rest : List Sighting) : VirtualMachineRow :=
  let last := rest.getLast?.getD first
  let kept := ((lastCollected (first::rest)).getD first).vm.guest
  { newRow id last.vm last.seenAt with
    guestOsName := kept.osName
    guestOsSource := kept.osSource
    guestHostname := kept.hostname
    guestObservedAt := kept.observedAt
    firstSeenAt := first.seenAt }

/-- The store has the row that the sightings of a machine determine, or none without them. -/
def Tells (db : Database) (k : UUID × String) : List Sighting → Prop
  | [] => ∀ r ∈ db.virtualMachines.rows, r.key ≠ k
  | first::rest => ∃ id, storedRow id first rest ∈ db.virtualMachines.rows ∧
      (storedRow id first rest).key = k

section
variable {db db' : Database} {id c : UUID} {t : Timestamp} {first s : Sighting}
  {rest seen : List Sighting} {k : UUID × String} {vm : VirtualMachine} {vms : List VirtualMachine}
  {uuid4 : ℕ → UUID} {u u' : UpsertState} {call : UpsertCall} {dbms : Dbms} {env : Env}
  {events : List PortalEvent}

theorem storedRow_nil (id : UUID) (vm : VirtualMachine) (t : Timestamp) :
    storedRow id ⟨vm,t⟩ [] = newRow id vm t := by
  by_cases hg : vm.guest.availability = .available <;> simp [storedRow,lastCollected,hg,newRow]

theorem lastCollected_append (seen : List Sighting) (s : Sighting) :
    lastCollected (seen ++ [s]) =
      if s.vm.guest.availability = .available then some s else lastCollected seen := by
  rw [lastCollected,List.filter_append]
  by_cases hg : s.vm.guest.availability = .available
  · simp [hg]
  · simp [hg,lastCollected]

theorem storedRow_append (id : UUID) (first : Sighting) (rest : List Sighting) (s : Sighting) :
    storedRow id first (rest ++ [s]) = observed s.vm s.seenAt (storedRow id first rest) := by
  have hlast : (rest ++ [s]).getLast?.getD first = s := by simp
  unfold storedRow
  rw [hlast,← List.cons_append,lastCollected_append]
  by_cases hg : s.vm.guest.availability = .available
  · simp [observed,refreshed,setColumns,mergeGuest,GuestInfo.withFallback,GuestInfo.isCollected,
      newRow,hg]
  · simp [observed,refreshed,setColumns,mergeGuest,GuestInfo.withFallback,GuestInfo.isCollected,
      newRow,rowToDomain,hg]

theorem Tells.step (h : StoreInvariant u.db) (htells : Tells u.db vm.key seen)
    (hs : upsertOne uuid4 vm.connectionId t u vm = .ok u') :
    Tells u'.db vm.key (seen ++ [⟨vm,t⟩]) := by
  cases seen with
  | nil =>
    have hrows := upsertOne_rows_of_not_mem h htells hs
    refine ⟨uuid4 u.drawn,?_,?_⟩
    · rw [storedRow_nil,hrows]
      simp
    · rw [storedRow_nil,newRow_key]
  | cons first rest =>
    obtain ⟨id,hr,hk⟩ := htells
    have hrows := (upsertOne_rows_of_mem h hr hk hs).1
    rw [List.cons_append]
    refine ⟨id,?_,?_⟩
    · rw [storedRow_append,hrows,List.mem_map]
      exact ⟨_,hr,if_pos hk⟩
    · rw [storedRow_append,observed_key]

theorem Tells.frame (htells : Tells db k seen)
    (h : ∀ r, r.key = k → (r ∈ db'.virtualMachines.rows ↔ r ∈ db.virtualMachines.rows)) :
    Tells db' k seen := by
  cases seen with
  | nil => exact fun r hr hk => htells r ((h r hk).mp hr) hk
  | cons first rest =>
    obtain ⟨id,hr,hk⟩ := htells
    exact ⟨id,(h _ hk).mpr hr,hk⟩

theorem Tells.upsertAll (h : StoreInvariant u.db) (hc : ∀ vm ∈ vms, vm.connectionId = c)
    (htells : Tells u.db k seen) (hs : upsertAll uuid4 c t vms u = .ok u') :
    Tells u'.db k (seen ++ (vms.filter fun vm => vm.key = k).map fun vm => ⟨vm,t⟩) := by
  induction vms generalizing u seen with
  | nil =>
    cases hs
    simpa using htells
  | cons vm vms ih =>
    obtain ⟨mid,hone,hrest⟩ := bind_eq_ok.mp hs
    rw [← hc vm List.mem_cons_self] at hone
    have hu := (upsertOne_ok h hone).1
    have hvms := fun v hv => hc v (List.mem_cons_of_mem vm hv)
    by_cases hk : vm.key = k
    · subst hk
      have hmid := ih hu.invariant hvms (htells.step h hone) hrest
      simpa using hmid
    · have hmid := ih hu.invariant hvms (htells.frame fun r hr => hu.frame r (by
        rw [hr,List.mem_singleton]
        exact fun he => hk he.symm)) hrest
      simpa [hk] using hmid

theorem Tells.collect (h : StoreInvariant db) (hcarried : call.Carried) {result : UpsertResult}
    (htells : Tells db k seen) (hrun : call.run db = .ok (result,db')) :
    StoreInvariant db' ∧ Tells db' k (seen ++ call.sightings k) := by
  obtain ⟨u,hu,he⟩ := bind_eq_ok.mp hrun
  cases he
  exact ⟨(upsertAll_ok h hcarried hu).1.invariant,htells.upsertAll h hcarried hu⟩

theorem tells_after {after : Database} {writes : List Write}
    (h : StoreInvariant db ∧ Tells db k seen) (hw : Write.applyAll dbms writes db = .ok after)
    (row : AuditEventRow) :
    StoreInvariant (after.addAudit row) ∧ Tells (after.addAudit row) k seen := by
  obtain ⟨hmachines,hids⟩ := applyAll_keeps_machines hw
  refine ⟨h.1.congr hmachines hids,h.2.frame fun r _ => ?_⟩
  rw [Database.addAudit,hmachines]

/-- One event of a history. -/
theorem Tells.event (dbms : Dbms) (env : Env) {e : PortalEvent} (hcarried : e.Carried)
    (h : StoreInvariant db ∧ Tells db k seen) :
    StoreInvariant (e.run dbms env db) ∧
      Tells (e.run dbms env db) k (seen ++ e.sightings k db) := by
  cases e with
  | request call =>
    have hnone : seen ++ (PortalEvent.request call).sightings k db = seen := List.append_nil _
    rw [hnone]
    exact call.serve_cases (fun d => StoreInvariant d ∧ Tells d k seen) h
      fun d w _ hw row _ => tells_after h hw row
  | login attempt =>
    have hnone : seen ++ (PortalEvent.login attempt).sightings k db = seen := List.append_nil _
    rw [hnone]
    exact attempt.serve_cases (fun d => StoreInvariant d ∧ Tells d k seen) h
      fun row w _ hw event _ => tells_after h hw event
  | collect call =>
    cases hrun : call.run db with
    | error err =>
      simp only [PortalEvent.run,PortalEvent.sightings,hrun,List.append_nil]
      exact h
    | ok after =>
      simp only [PortalEvent.run,PortalEvent.sightings,hrun]
      exact h.2.collect h.1 hcarried hrun

/-- The whole history, by induction over its events. -/
theorem Tells.history (dbms : Dbms) (env : Env) (hcarried : ∀ e ∈ events, e.Carried)
    (h : StoreInvariant db ∧ Tells db k seen) :
    StoreInvariant (portalAfter dbms env events db) ∧
      Tells (portalAfter dbms env events db) k (seen ++ sightings dbms env k events db) := by
  induction events generalizing db seen with
  | nil => simpa [portalAfter,sightings] using h
  | cons e events ih =>
    have hone := Tells.event dbms env (hcarried e List.mem_cons_self) h
    have hrest := ih (fun x hx => hcarried x (List.mem_cons_of_mem _ hx)) hone
    simpa [portalAfter,sightings] using hrest

theorem mem_sightings (hs : s ∈ sightings dbms env k events db) :
    ∃ call, .collect call ∈ events ∧ s.vm ∈ call.vms := by
  induction events generalizing db with
  | nil => cases hs
  | cons e events ih =>
    rcases List.mem_append.mp hs with hs | hs
    · cases e with
      | request call => cases hs
      | login attempt => cases hs
      | collect call =>
        simp only [PortalEvent.sightings] at hs
        split at hs
        · obtain ⟨vm,hvm,rfl⟩ := List.mem_map.mp hs
          exact ⟨call,List.mem_cons_self,(List.mem_filter.mp hvm).1⟩
        · cases hs
    · obtain ⟨call,hcall,hvm⟩ := ih hs
      exact ⟨call,List.mem_cons_of_mem _ hcall,hvm⟩

end

/-- What a guest and its configuration call the system, and when they were asked. -/
structure GuestReport where
  fromGuest : Option String
  configured : Option String
  observedAt : Timestamp

/-- The name that a report gives: the guest's own goes before the configured one. -/
def GuestReport.name (report : GuestReport) : Option String :=
  (filled report.fromGuest).or (filled report.configured)

/-- A guest as one of the three mappers builds it, with what it was built from. -/
inductive Mapped (py : Interpreter) : GuestInfo → GuestReport → Prop
  | vcenter (props : VCenter.Props) (t : Timestamp) : Mapped py (VCenter.mapGuestInfo props t)
      ⟨props .guestFullName,props .configGuestFullName,t⟩
  | host {row : JsonFields} {t : Timestamp} {g : GuestInfo} (hrow : HostGuestRow row)
      (hg : HostMapper.mapGuestInfo py row t = .ok g) :
      Mapped py g ⟨(Json.get row "KvpOSName").asText,none,t⟩
  | scvmm {row : JsonFields} {t : Timestamp} {g : GuestInfo} (hrow : ScvmmGuestRow row)
      (hg : ScvmmMapper.mapScvmmGuest py row t = .ok g) :
      Mapped py g ⟨none,(Json.get row "OperatingSystem").asText,t⟩

/-- What the sightings of a machine tell of its system. -/
def known (report : VirtualMachine → GuestReport) (first : Sighting) (rest : List Sighting) :
    OsKnowledge :=
  let last := (rest.getLast?.getD first).vm
  if last.guest.availability = .available then
    match filled (report last).fromGuest with
    | some os => .reported os
    | none => match filled (report last).configured with
      | some os => .configured os
      | none => .nameless
  else match lastCollected (first::rest) with
    | some kept => match (report kept.vm).name with
      | some os => .lastKnown last.guest.availability os (report kept.vm).observedAt
      | none => .ofConfiguration last.guest.availability last.platform.configuredOs
    | none => .ofConfiguration last.guest.availability last.platform.configuredOs

/-- A guest that is known by the name of its report. -/
structure GuestReport.Names (report : GuestReport) (g : GuestInfo) : Prop where
  name : g.availability = .available →
    (g.osName,g.osSource) = VCenter.resolveOsName report.fromGuest report.configured
  observedAt : g.availability = .available → g.observedAt = some report.observedAt
  absent : g.availability ≠ .available → g.osName = none

section
variable {py : Interpreter} {report : GuestReport} {g : GuestInfo}

theorem names_unavailable {a : GuestInfoAvailability} (h : a ≠ .available) :
    report.Names { availability := a } :=
  ⟨fun ha => absurd ha h,fun ha => absurd ha h,fun _ => rfl⟩

theorem names_host {row : JsonFields} {t : Timestamp} (hstr : ∀ text, py.str (.str text) = text)
    (hrow : HostGuestRow row) (h : HostMapper.mapGuestInfo py row t = .ok g) :
    GuestReport.Names ⟨(Json.get row "KvpOSName").asText,none,t⟩ g := by
  unfold HostMapper.mapGuestInfo at h
  by_cases hoff : (!(Json.get row "IntegrationOk").truthy) = true
  · rw [if_pos hoff] at h
    cases h
    exact names_unavailable (by decide)
  · rw [if_neg hoff] at h
    obtain ⟨v4Raw,h⟩ := ok_of_bind h
    obtain ⟨v6Raw,h⟩ := ok_of_bind h
    obtain ⟨adapters,h⟩ := ok_of_bind h
    obtain ⟨addresses,h⟩ := ok_of_bind h
    obtain ⟨⟨v4,v6⟩,h⟩ := ok_of_bind h
    dsimp only at h
    split at h
    · cases h
      exact names_unavailable (by decide)
    · cases h
      exact ⟨fun _ => (resolve_textOrNone hstr hrow.osName).1,fun _ => rfl,fun h => absurd rfl h⟩

theorem names_scvmm {row : JsonFields} {t : Timestamp} (hstr : ∀ text, py.str (.str text) = text)
    (hrow : ScvmmGuestRow row) (h : ScvmmMapper.mapScvmmGuest py row t = .ok g) :
    GuestReport.Names ⟨none,(Json.get row "OperatingSystem").asText,t⟩ g := by
  unfold ScvmmMapper.mapScvmmGuest at h
  obtain ⟨adapters,h⟩ := ok_of_bind h
  obtain ⟨addresses,h⟩ := ok_of_bind h
  obtain ⟨⟨v4,v6⟩,h⟩ := ok_of_bind h
  dsimp only at h
  split at h
  · cases h
    exact names_unavailable (by decide)
  · cases h
    exact ⟨fun _ => (resolve_textOrNone hstr hrow.operatingSystem).2,fun _ => rfl,
      fun h => absurd rfl h⟩

theorem Mapped.names (hstr : ∀ text, py.str (.str text) = text) (h : Mapped py g report) :
    report.Names g := by
  cases h with
  | vcenter props t =>
    unfold VCenter.mapGuestInfo
    split_ifs
    · exact names_unavailable (by decide)
    · exact names_unavailable (by decide)
    · exact names_unavailable (by decide)
    · exact ⟨fun _ => rfl,fun _ => rfl,fun h => absurd rfl h⟩
  | host hrow hg => exact names_host hstr hrow hg
  | scvmm hrow hg => exact names_scvmm hstr hrow hg

theorem GuestReport.Names.resolved (h : report.Names g) (hg : g.availability = .available) :
    (∃ os, filled report.fromGuest = some os ∧ g.osName = some os ∧
      g.osSource = some .guestTools) ∨
    (∃ os, filled report.fromGuest = none ∧ filled report.configured = some os ∧
      g.osName = some os ∧ g.osSource = some .vmConfig) ∨
    filled report.fromGuest = none ∧ filled report.configured = none ∧ g.osName = none := by
  have hname := h.name hg
  rcases resolveOsName_cases report.fromGuest report.configured with ⟨hguest,hos⟩ |
    ⟨hguest,hconfig,hos⟩ | ⟨hguest,hconfig,hos⟩
  · obtain ⟨os,hreport,hne⟩ := hguest
    obtain ⟨h1,h2⟩ := Prod.mk.inj (hname.trans hos)
    exact .inl ⟨os,filled_eq_some.mpr ⟨hreport,hne⟩,h1.trans hreport,h2⟩
  · obtain ⟨os,hreport,hne⟩ := hconfig
    obtain ⟨h1,h2⟩ := Prod.mk.inj (hname.trans hos)
    exact .inr (.inl ⟨os,filled_eq_none.mpr hguest,filled_eq_some.mpr ⟨hreport,hne⟩,
      h1.trans hreport,h2⟩)
  · exact .inr (.inr ⟨filled_eq_none.mpr hguest,filled_eq_none.mpr hconfig,
      (Prod.mk.inj (hname.trans hos)).1⟩)

theorem GuestReport.Names.filled_osName (h : report.Names g) (hg : g.availability = .available) :
    filled g.osName = report.name := by
  unfold GuestReport.name
  rcases h.resolved hg with ⟨os,hguest,hos,_⟩ | ⟨os,hguest,hconfig,hos,_⟩ | ⟨hguest,hconfig,hos⟩
  · rw [hguest,hos,filled_some (filled_eq_some.mp hguest).2]
    rfl
  · rw [hguest,hconfig,hos,filled_some (filled_eq_some.mp hconfig).2]
    rfl
  · rw [hguest,hconfig,hos]
    rfl

end

section
variable {first : Sighting} {rest : List Sighting} {report : VirtualMachine → GuestReport}
  {id : UUID} {connectionName : String} {kind : ConnectionKind} {now : ℤ}

theorem lastCollected_mem {seen : List Sighting} {kept : Sighting}
    (h : lastCollected seen = some kept) :
    kept ∈ seen ∧ kept.vm.guest.availability = .available := by
  have hmem := List.mem_of_getLast? h
  rw [List.mem_filter] at hmem
  exact ⟨hmem.1,of_decide_eq_true hmem.2⟩

theorem lastCollected_none (h : lastCollected (first::rest) = none) :
    first.vm.guest.availability ≠ .available := by
  intro hg
  rw [lastCollected,List.getLast?_eq_none_iff,List.filter_eq_nil_iff] at h
  exact h first List.mem_cons_self (decide_eq_true hg)

theorem lastCollected_last
    (hg : (rest.getLast?.getD first).vm.guest.availability = .available) :
    lastCollected (first::rest) = some (rest.getLast?.getD first) := by
  rcases List.eq_nil_or_concat rest with rfl | ⟨before,last,rfl⟩
  · have hfirst : first.vm.guest.availability = .available := hg
    simp [lastCollected,hfirst]
  · rw [List.concat_eq_append] at hg ⊢
    have hlast : (before ++ [last]).getLast?.getD first = last := by simp
    rw [hlast] at hg ⊢
    rw [← List.cons_append,lastCollected_append,if_pos hg]

/-- The cell of a stored row, from the sightings that the row comes from. -/
theorem osField_storedRow (hnames : ∀ s ∈ first::rest, (report s.vm).Names s.vm.guest) :
    osField now (.fromSummary (rowToSummary (storedRow id first rest,connectionName,kind))) =
      (known report first rest).shown now := by
  have hlast : rest.getLast?.getD first ∈ first::rest := by
    rcases List.eq_nil_or_concat rest with rfl | ⟨before,last,rfl⟩
    · simp
    · simp
  by_cases hg : (rest.getLast?.getD first).vm.guest.availability = .available
  · rw [osField_collected hg]
    simp only [rowToSummary,storedRow,known,if_pos hg,lastCollected_last hg,Option.getD_some]
    rcases (hnames _ hlast).resolved hg with ⟨os,hguest,hos,hsource⟩ |
      ⟨os,hguest,hconfig,hos,hsource⟩ | ⟨hguest,hconfig,hos⟩
    · rw [hguest,hos,hsource,filled_some (filled_eq_some.mp hguest).2]
      simp [OsKnowledge.shown]
    · rw [hguest,hconfig,hos,hsource,filled_some (filled_eq_some.mp hconfig).2]
      rfl
    · rw [hguest,hconfig,hos]
      rfl
  · cases hkept : lastCollected (first::rest) with
    | some kept =>
      obtain ⟨hmem,havailable⟩ := lastCollected_mem hkept
      have hfilled := (hnames kept hmem).filled_osName havailable
      have hos : (storedRow id first rest).guestOsName = kept.vm.guest.osName := by
        simp [storedRow,hkept]
      have hat : (storedRow id first rest).guestObservedAt = some (report kept.vm).observedAt := by
        simp [storedRow,hkept,(hnames kept hmem).observedAt havailable]
      cases hname : (report kept.vm).name with
      | some os =>
        rw [hname,← hos] at hfilled
        simp only [known,if_neg hg,hkept,hname]
        exact osField_lastKnown hg hfilled hat
      | none =>
        rw [hname,← hos] at hfilled
        simp only [known,if_neg hg,hkept,hname]
        exact osField_ofConfiguration hg hfilled
    | none =>
      have hfirst := lastCollected_none hkept
      have hos : filled (storedRow id first rest).guestOsName = none := by
        simp [storedRow,hkept,(hnames first List.mem_cons_self).absent hfirst]
      simp only [known,if_neg hg,hkept]
      exact osField_ofConfiguration hg hos

theorem mem_listing {dbms : Dbms} {cmp : Comparison} {cookie : Cookie} {connectionId : Option UUID}
    {page : Page} {db : Database} {response : PagedResponse VmSummaryResponse}
    (h : Routes.listVirtualMachines dbms cmp cookie connectionId page db = .ok response)
    {item : VmSummaryResponse} (hitem : item ∈ response.items) :
    ∃ r ∈ db.virtualMachines.rows, ∃ connection,
      db.connections.find? r.connectionId = some connection ∧
      item = .fromSummary (rowToSummary (r,connection.displayName,connection.kind)) := by
  obtain ⟨scope,_,h⟩ := bind_eq_ok.mp h
  obtain ⟨result,hresult,h⟩ := bind_eq_ok.mp h
  cases h
  obtain ⟨summary,hsummary,rfl⟩ := List.mem_map.mp hitem
  obtain ⟨_,_,hresult⟩ := bind_eq_ok.mp hresult
  obtain ⟨_,_,hresult⟩ := bind_eq_ok.mp hresult
  split at hresult
  · cases hresult
    cases hsummary
  · obtain ⟨_,_,hresult⟩ := bind_eq_ok.mp hresult
    split at hresult
    · cases hresult
      cases hsummary
    · split at hresult
      · cases hresult
      · cases hresult
        obtain ⟨x,hx,rfl⟩ := List.mem_map.mp hsummary
        have hbase := (TotalPreorder.orderBy_perm _ _ _ _).mem_iff.mp
          (List.mem_of_mem_drop (List.mem_of_mem_take hx))
        obtain ⟨hr,_,hj⟩ := mem_searchBase.mp hbase
        obtain ⟨c,hc,he⟩ := Option.map_eq_some_iff.mp hj
        exact ⟨x.1,hr,c,hc,by rw [he]⟩

end
/-- After any history a listed machine shows what its stored sightings tell: its last values, the
guest values of the last sighting that reached the guest, and in the cell of its system exactly
what is known of it. -/
theorem listed_machine_tells_history (dbms : Dbms) (env : Env) (cmp : Comparison)
    (py : Interpreter) (hstr : ∀ text, py.str (.str text) = text) (start : Database)
    (hvms : start.virtualMachines.rows = []) (hids : start.resourceIdentities.rows = [])
    (events : List PortalEvent) (hcarried : ∀ e ∈ events, e.Carried)
    (report : VirtualMachine → GuestReport)
    (hmapped : ∀ call, .collect call ∈ events → ∀ vm ∈ call.vms, Mapped py vm.guest (report vm))
    (cookie : Cookie) (connectionId : Option UUID) (page : Page)
    (response : PagedResponse VmSummaryResponse)
    (hlisted : Routes.listVirtualMachines dbms cmp cookie connectionId page
      (portalAfter dbms env events start) = .ok response)
    (item : VmSummaryResponse) (hitem : item ∈ response.items) :
    ∃ first rest connection,
      sightings dbms env (item.connectionId,item.nativeId) events start = first::rest ∧
      (portalAfter dbms env events start).connections.find? item.connectionId = some connection ∧
      item = .fromSummary (rowToSummary (storedRow item.resourceId first rest,
        connection.displayName,connection.kind)) ∧
      ∀ now, osField now item = (known report first rest).shown now := by
  obtain ⟨r,hr,connection,hconnection,rfl⟩ := mem_listing hlisted hitem
  have hnone : Tells start r.key [] := by simp [Tells,hvms]
  obtain ⟨hstore,htells⟩ := Tells.history dbms env hcarried
    ⟨StoreInvariant.of_empty hvms hids,hnone⟩
  rw [List.nil_append] at htells
  cases hseen : sightings dbms env r.key events start with
  | nil =>
    rw [hseen] at htells
    exact absurd rfl (htells r hr)
  | cons first rest =>
    rw [hseen] at htells
    obtain ⟨id,hrow,hkey⟩ := htells
    have hsame : storedRow id first rest = r := hstore.unique _ hrow r hr hkey
    have hid : storedRow r.resourceId first rest = r := by
      rw [← hsame]
      rfl
    have hnames : ∀ s ∈ first::rest, (report s.vm).Names s.vm.guest := by
      intro s hs
      rw [← hseen] at hs
      obtain ⟨call,hcall,hvm⟩ := mem_sightings hs
      exact (hmapped call hcall s.vm hvm).names hstr
    refine ⟨first,rest,connection,hseen,hconnection,?_,fun now => ?_⟩
    · change _ = VmSummaryResponse.fromSummary
        (rowToSummary (storedRow r.resourceId first rest,connection.displayName,connection.kind))
      rw [hid]
    · rw [← hsame]
      exact osField_storedRow hnames

/-- The properties of a machine whose guest tools run, and after they were stopped. -/
def runningProps : VCenter.Props
  | .guestFullName => some "linux"
  | .hostName => some "web"
  | _ => none

def stoppedProps : VCenter.Props
  | .toolsRunningStatus => some "guestToolsNotRunning"
  | _ => none

def stoppedReport (vm : VirtualMachine) : GuestReport :=
  if vm.guest.availability = .available then ⟨some "linux",none,900⟩ else ⟨none,none,0⟩

theorem toolsStopped_mapped : ∀ vm ∈ toolsStopped.vms,
    Mapped plainInterpreter vm.guest (stoppedReport vm) := by
  intro vm hvm
  simp only [toolsStopped,List.mem_cons,List.not_mem_nil,or_false] at hvm
  rcases hvm with rfl | rfl
  · exact .vcenter runningProps 900
  · exact .vcenter stoppedProps 0

theorem listed_machine_tells_history_stopped : ∃ response item,
    Routes.listVirtualMachines .lenient .nullsLast (.valid claimsOfAlice) none {}
      (portalAfter .lenient plainEnv [.collect toolsStopped] viewedStore) = .ok response ∧
    item ∈ response.items ∧ ∀ now, osField now item =
      (OsKnowledge.lastKnown .toolsNotRunning "linux" 900).shown now := by
  have hlisted : (Routes.listVirtualMachines .lenient .nullsLast (.valid claimsOfAlice) none {}
      (portalAfter .lenient plainEnv [.collect toolsStopped] viewedStore)).map
        (fun response => response.items.map fun item => (item.connectionId,item.nativeId)) =
      .ok [(7,"vm-1")] := by
    decide +kernel
  cases hx : Routes.listVirtualMachines .lenient .nullsLast (.valid claimsOfAlice) none {}
      (portalAfter .lenient plainEnv [.collect toolsStopped] viewedStore) with
  | error e =>
    rw [hx] at hlisted
    cases hlisted
  | ok response =>
    rw [hx] at hlisted
    have hitems : response.items.map (fun item => (item.connectionId,item.nativeId)) =
        [(7,"vm-1")] := Except.ok.inj hlisted
    obtain ⟨item,hone,hkey⟩ := List.map_eq_singleton_iff.mp hitems
    have hitem : item ∈ response.items := by simp [hone]
    obtain ⟨first,rest,connection,hseen,_,_,hcell⟩ := listed_machine_tells_history .lenient
      plainEnv .nullsLast plainInterpreter (fun _ => rfl) viewedStore rfl rfl
      [.collect toolsStopped] (by simpa [PortalEvent.Carried] using toolsStopped_carried)
      stoppedReport (by simpa using toolsStopped_mapped) (.valid claimsOfAlice) none {} response hx
      item hitem
    have hsightings : sightings .lenient plainEnv (7,"vm-1") [.collect toolsStopped] viewedStore =
        toolsStopped.vms.map fun vm => ⟨vm,1000⟩ := by
      decide +kernel
    rw [hkey,hsightings] at hseen
    cases hseen
    exact ⟨response,item,rfl,hitem,hcell⟩

end WzonePortal
