import WzonePortal.CollectionWorld
import WzonePortal.InventoryPages
import WzonePortal.PortalHistory

/-! Three ways to count machines: the total of the listing, the number for one connection and the
numbers for all connections. The listing joins the connections and the others do not, so that
they agree as long as every machine has its connection, which the statements of the portal keep. -/
namespace WzonePortal

open VirtualMachineRepository ConnectionRepository

/-- The stores that the statements of the portal can lead to, in whatever order they come. -/
inductive Reachable (dbms : Dbms) : Database → Prop
  | empty (db : Database) (h : db.virtualMachines.rows = []) : Reachable dbms db
  | write {db db' : Database} (w : Write) (h : Reachable dbms db)
    (hw : w.apply dbms db = .ok db') : Reachable dbms db'
  | insertVm {db db' : Database} {id : UUID} {vm : VirtualMachine} {t : Timestamp}
    (h : Reachable dbms db) (hvm : insertVm db id vm t = .ok db') : Reachable dbms db'
  | updateVm {db : Database} {id : UUID} {vm : VirtualMachine} {t : Timestamp}
    {changed : Bool × Database} (h : Reachable dbms db)
    (hvm : updateVm db id vm t = .ok changed) : Reachable dbms changed.2
  | syncIdentities {db db' : Database} {id c : UUID} {keys : List IdentityKey}
    (h : Reachable dbms db) (hkeys : syncIdentities db id keys c = .ok db') : Reachable dbms db'
  | markAttempt {db : Database} (now : Timestamp) (c : UUID) (h : Reachable dbms db) :
    Reachable dbms (markAttempt now c db)
  | markSuccess {db : Database} (now : Timestamp) (c : UUID) (at_ : Timestamp)
    (h : Reachable dbms db) : Reachable dbms (markSuccess now c at_ db)
  | markFailure {db : Database} (now : Timestamp) (c : UUID) (error : String)
    (status : ConnectionStatus) (h : Reachable dbms db) :
    Reachable dbms (markFailure now c error status db)

namespace VirtualMachineRepository

/-- The connections of the active machines of the scope, with repetition. -/
def countedIds (db : Database) (scope : AccessScope) : List UUID :=
  (db.virtualMachines.rows.filter fun r => r.lifecycle = .active && applyScope scope r).map
    (·.connectionId)

/-- `GROUP BY connection_id`: one row for each identifier that occurs. -/
def countByConnection (db : Database) (scope : AccessScope) : List (UUID × ℕ) :=
  if scope.isEmpty then []
  else (countedIds db scope).dedup.map fun c => (c,(countedIds db scope).count c)

/-- `counts.get(connection_id, 0)`. -/
def countOf (counts : List (UUID × ℕ)) (connectionId : UUID) : ℕ :=
  (counts.lookup connectionId).getD 0

end VirtualMachineRepository

section
variable {dbms : Dbms} {env : Env} {db db' : Database} {scope : AccessScope} {c : UUID}

theorem VirtualMachineRepository.ForeignKey.congr (h : ForeignKey db)
    (hvms : ∀ r ∈ db'.virtualMachines.rows, ∃ q ∈ db.virtualMachines.rows,
      q.connectionId = r.connectionId)
    (hconnections : ∀ r ∈ db.connections.rows,
      (∃ q ∈ db.virtualMachines.rows, q.connectionId = r.connectionId) →
        ∃ q ∈ db'.connections.rows, q.connectionId = r.connectionId) : ForeignKey db' := by
  intro r hr
  obtain ⟨q,hq,hid⟩ := hvms r hr
  obtain ⟨row,hrow⟩ := Option.isSome_iff_exists.mp (h q hq)
  obtain ⟨hmem,hkey⟩ := (db.connections.find?_eq_some _ row).mp hrow
  obtain ⟨row',hmem',hkey'⟩ := hconnections row hmem ⟨q,hq,hkey.symm⟩
  rw [← hid,← hkey,← hkey',db'.connections.find?_of_mem hmem']
  rfl

theorem foreignKey_write {w : Write} (h : ForeignKey db) (hw : w.apply dbms db = .ok db') :
    ForeignKey db' := by
  cases w with
  | insertUser row =>
    obtain ⟨_,users,_,rfl⟩ := Write.apply_insertUser hw
    exact h
  | patchUser userId p =>
    obtain ⟨_,rfl⟩ := Write.apply_patchUser hw
    exact h
  | replaceScopes userId connectionIds grantedBy at_ =>
    obtain ⟨_,scopes,_,rfl⟩ := Write.apply_replaceScopes hw
    exact h
  | insertAudit row =>
    obtain ⟨_,rfl⟩ := Write.apply_insertAudit hw
    exact h
  | insertConnection row =>
    obtain ⟨connections,hinsert,rfl⟩ := Write.apply_insertConnection hw
    refine h.congr (fun r hr => ⟨r,hr,rfl⟩) fun r hr _ => ⟨r,?_,rfl⟩
    change r ∈ connections.rows
    rw [(Table.insert_eq_some.mp hinsert).2]
    exact List.mem_append_left _ hr
  | deleteConnection c =>
    have hfree : ∀ r ∈ db.virtualMachines.rows, r.connectionId ≠ c := by
      intro r hr hc
      have hany : db.virtualMachines.rows.any (fun r => r.connectionId = c) = true :=
        List.any_eq_true.mpr ⟨r,hr,by simpa using hc⟩
      simp only [Write.apply,hany,if_true] at hw
      cases hw
    rw [Write.apply_deleteConnection hw]
    refine h.congr (fun r hr => ⟨r,hr,rfl⟩) ?_
    rintro r hr ⟨q,hq,hid⟩
    refine ⟨r,?_,rfl⟩
    exact (Table.mem_deleteWhere _ _ _).mpr ⟨hr,by simpa [← hid] using hfree q hq⟩

theorem foreignKey_insertVm {id : UUID} {vm : VirtualMachine} {t : Timestamp}
    (h : ForeignKey db) (hvm : insertVm db id vm t = .ok db') : ForeignKey db' := by
  obtain ⟨_,hcheck,_⟩ := bind_eq_ok.mp hvm
  obtain ⟨_,_,hconnection⟩ := checkRow_ok hcheck
  obtain ⟨_,_,_,hrows,_,hconnections⟩ := insertVm_ok hvm
  intro r hr
  rw [hrows,List.mem_append,List.mem_singleton] at hr
  rw [hconnections]
  rcases hr with hr | rfl
  · exact h r hr
  · exact hconnection

theorem foreignKey_updateVm {id : UUID} {vm : VirtualMachine} {t : Timestamp}
    {changed : Bool × Database} (h : ForeignKey db) (hvm : updateVm db id vm t = .ok changed) :
    ForeignKey changed.2 := by
  cases hrow : db.virtualMachines.find? id with
  | none =>
    simp only [updateVm,hrow] at hvm
    cases hvm
    exact h
  | some row =>
    obtain ⟨hmem,rfl⟩ := (db.virtualMachines.find?_eq_some id row).mp hrow
    obtain ⟨_,_,hconnections,hrows⟩ := updateVm_ok hmem hvm
    have hconnection : (db.connections.find? (refreshed vm t row).connectionId).isSome := by
      simp only [updateVm,hrow] at hvm
      obtain ⟨_,hcheck,_⟩ := bind_eq_ok.mp hvm
      exact (checkRow_ok hcheck).2.2
    intro r hr
    rw [hconnections]
    rcases (hrows r).mp hr with ⟨hr,_⟩ | rfl
    · exact h r hr
    · exact hconnection

theorem foreignKey_modify {f : ConnectionRow → ConnectionRow}
    (hf : ∀ row, (f row).connectionId = row.connectionId) (h : ForeignKey db) (c : UUID) :
    ForeignKey { db with connections := db.connections.modify c f hf } := by
  intro r hr
  change ((db.connections.modify c f hf).find? r.connectionId).isSome
  rw [Table.find?_modify]
  split
  · rw [Option.isSome_map]
    exact h r hr
  · exact h r hr

theorem Reachable.foreignKey (h : Reachable dbms db) : ForeignKey db := by
  induction h with
  | empty db h =>
    intro r hr
    rw [h] at hr
    cases hr
  | write w _ hw ih => exact foreignKey_write ih hw
  | insertVm _ hvm ih => exact foreignKey_insertVm ih hvm
  | updateVm _ hvm ih => exact foreignKey_updateVm ih hvm
  | syncIdentities _ hkeys ih =>
    obtain ⟨hvms,hconnections,_⟩ := syncIdentities_ok hkeys
    intro r hr
    rw [hconnections]
    rw [hvms] at hr
    exact ih r hr
  | markAttempt now c _ ih => exact foreignKey_modify _ ih c
  | markSuccess now c at_ _ ih => exact foreignKey_modify _ ih c
  | markFailure now c error status _ ih => exact foreignKey_modify _ ih c

theorem length_visible (db : Database) (scope : AccessScope) :
    (db.virtualMachines.rows.filter (visible scope none)).length = (countedIds db scope).length ∧
    ∀ c, (db.virtualMachines.rows.filter (visible scope (some c))).length =
      (countedIds db scope).count c := by
  have hscope : (fun r : VirtualMachineRow => r.lifecycle = .active && applyScope scope r) =
      fun r => r.lifecycle = .active && scope.canAccess r.connectionId :=
    funext fun r => by rw [applyScope_eq_canAccess]
  constructor
  · rw [countedIds,List.length_map,hscope]
    congr 1
    exact List.filter_congr fun r _ => by simp [visible]
  · intro c
    rw [countedIds,hscope,List.count,List.countP_map,List.countP_filter,
      List.countP_eq_length_filter]
    congr 1
    refine List.filter_congr fun r _ => ?_
    by_cases hc : r.connectionId = c <;> simp [visible,hc]

theorem countedIds_of_isEmpty (h : scope.isEmpty = true) : countedIds db scope = [] := by
  rw [countedIds,List.map_eq_nil_iff,List.filter_eq_nil_iff]
  intro r _
  rw [applyScope_eq_canAccess]
  cases hids : scope.allowedConnectionIds with
  | none => simp [AccessScope.isEmpty,hids] at h
  | some ids =>
    simp only [AccessScope.isEmpty,hids,decide_eq_true_eq] at h
    simp [AccessScope.canAccess,hids,h]

theorem lookup_map_pair {l : List UUID} (f : UUID → ℕ) (c : UUID) :
    (l.map fun c => (c,f c)).lookup c = if c ∈ l then some (f c) else none := by
  induction l with
  | nil => rfl
  | cons a l ih =>
    rw [List.map_cons,List.lookup_cons]
    by_cases hc : c = a
    · simp [hc]
    · rw [beq_false_of_ne hc]
      simp [hc,ih]

theorem countOf_countByConnection (db : Database) (scope : AccessScope) (c : UUID) :
    countOf (countByConnection db scope) c = (countedIds db scope).count c := by
  unfold countByConnection countOf
  split_ifs with h
  · rw [countedIds_of_isEmpty h]
    rfl
  · rw [lookup_map_pair]
    by_cases hc : c ∈ countedIds db scope
    · simp [hc]
    · simp [hc,List.count_eq_zero_of_not_mem hc]

theorem sum_countByConnection (db : Database) (scope : AccessScope) :
    ((countByConnection db scope).map Prod.snd).sum = (countedIds db scope).length := by
  unfold countByConnection
  split_ifs with h
  · rw [countedIds_of_isEmpty h]
    rfl
  · rw [List.map_map]
    exact List.sum_map_count_dedup_eq_length _

theorem sum_over_connections (h : ForeignKey db) (scope : AccessScope) :
    (db.connections.rows.map fun row =>
      countOf (countByConnection db scope) row.connectionId).sum =
        (countedIds db scope).length := by
  have hids : ∀ c ∈ countedIds db scope,
      c ∈ db.connections.rows.map ConnectionRow.connectionId := by
    intro c hc
    obtain ⟨r,hr,rfl⟩ := List.mem_map.mp hc
    obtain ⟨row,hrow⟩ := Option.isSome_iff_exists.mp (h r (List.mem_filter.mp hr).1)
    obtain ⟨hmem,hkey⟩ := (db.connections.find?_eq_some _ row).mp hrow
    exact List.mem_map.mpr ⟨row,hmem,hkey⟩
  simp only [countOf_countByConnection]
  have hsum := List.sum_toFinset (fun c => (countedIds db scope).count c) db.connections.nodup
  rw [List.map_map] at hsum
  refine hsum.symm.trans ?_
  rw [← Multiset.coe_card,← Multiset.sum_count_eq_card fun c hc =>
    List.mem_toFinset.mpr (hids c hc)]
  exact Finset.sum_congr rfl fun c _ => (Multiset.coe_count c _).symm

theorem countActive_eq (db : Database) (scope : AccessScope) (c : UUID) :
    (countedIds db scope).count c = if scope.canAccess c then db.countActiveVms c else 0 := by
  rw [← (length_visible db scope).2 c]
  split_ifs with h
  · rw [Database.countActiveVms]
    congr 1
    refine List.filter_congr fun r _ => ?_
    by_cases hc : r.connectionId = c
    · subst hc
      simp [visible,h]
    · simp [visible,hc]
  · rw [List.length_eq_zero_iff,List.filter_eq_nil_iff]
    intro r _
    by_cases hc : r.connectionId = c
    · subst hc
      simp [visible,h]
    · simp [visible,hc]

theorem searchVms_total (hfk : ForeignKey db) (cmp : Comparison) (connectionId : Option UUID)
    {page : Page} (hpage : page.validate = .ok ()) :
    ∃ result, searchVms cmp db scope connectionId page = .ok result ∧ result.total =
      (db.virtualMachines.rows.filter (visible scope connectionId)).length := by
  obtain ⟨column,hcolumn⟩ := sortColumns_isSome (Page.validate_eq_ok.mp hpage).2.2.2
  refine ⟨_,searchVms_eq_slice hpage hcolumn,?_⟩
  rw [← searchBase_rows hfk,List.length_map]

theorem Reachable.writes (h : Reachable dbms db) {ws : List Write}
    (hws : Write.applyAll dbms ws db = .ok db') : Reachable dbms db' := by
  induction ws generalizing db with
  | nil =>
    cases hws
    exact h
  | cons w ws ih =>
    obtain ⟨mid,hw,hrest⟩ := Write.applyAll_cons hws
    exact ih (h.write w hw) hrest

theorem Reachable.upsertOne {uuid4 : ℕ → UUID} {t : Timestamp} {vm : VirtualMachine}
    {st st' : UpsertState} (h : Reachable dbms st.db) (hs : upsertOne uuid4 c t st vm = .ok st') :
    Reachable dbms st'.db := by
  rcases upsertOne_cases hs with hi | ⟨m,changed,hu⟩
  · obtain ⟨mid,hinsert,hsync⟩ := hi.stored
    exact (h.insertVm hinsert).syncIdentities hsync
  · exact (h.updateVm hu.updated).syncIdentities hu.stored

theorem Reachable.upsertAll {uuid4 : ℕ → UUID} {t : Timestamp} {vms : List VirtualMachine}
    {st st' : UpsertState} (h : Reachable dbms st.db) (hs : upsertAll uuid4 c t vms st = .ok st') :
    Reachable dbms st'.db := by
  induction vms generalizing st with
  | nil =>
    cases hs
    exact h
  | cons vm vms ih =>
    obtain ⟨mid,hone,hrest⟩ := bind_eq_ok.mp hs
    exact ih (h.upsertOne hone) hrest

/-- The histories of requests, logins and collections do not lead further. -/
theorem Reachable.run (h : Reachable dbms db) (e : PortalEvent) :
    Reachable dbms (e.run dbms env db) := by
  cases e with
  | request call =>
    exact call.serve_cases (Reachable dbms) h fun d w _ hw row haudit =>
      (h.writes hw).write (.insertAudit row) (if_pos haudit)
  | login attempt =>
    exact attempt.serve_cases (Reachable dbms) h fun row w _ hw event haudit =>
      (h.writes hw).write (.insertAudit event) (if_pos haudit)
  | collect call =>
    refine collect_cases (Reachable dbms) h fun result db' hrun => ?_
    obtain ⟨st,hs,he⟩ := bind_eq_ok.mp hrun
    cases he
    exact h.upsertAll hs

end

end WzonePortal
