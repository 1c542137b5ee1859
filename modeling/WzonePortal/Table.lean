import Mathlib.Tactic

/-! Finite tables with a primary key. Uniqueness of the key is part of the type, so a
table with two rows of one key cannot be built; row order carries no meaning. -/
namespace WzonePortal

structure Table {ρ κ : Type} (key : ρ → κ) where
  rows : List ρ
  nodup : (rows.map key).Nodup

namespace Table

variable {ρ κ : Type} {key : ρ → κ}

@[ext] theorem ext {t u : Table key} (h : t.rows = u.rows) : t = u := by
  cases t; cases u; simpa using h

def empty : Table key := ⟨[],by simp⟩

@[simp] theorem empty_rows : (empty : Table key).rows = [] := rfl

theorem eq_of_key_eq (t : Table key) {r q : ρ} (hr : r ∈ t.rows) (hq : q ∈ t.rows)
    (h : key r = key q) : r = q :=
  List.inj_on_of_nodup_map t.nodup hr hq h

theorem rows_nodup (t : Table key) : t.rows.Nodup := t.nodup.of_map key

/-- Delete every row satisfying `p`. -/
def deleteWhere (t : Table key) (p : ρ → Bool) : Table key where
  rows := t.rows.filter fun r => !p r
  nodup := t.nodup.sublist (List.filter_sublist.map key)

@[simp] theorem mem_deleteWhere (t : Table key) (p : ρ → Bool) (r : ρ) :
    r ∈ (t.deleteWhere p).rows ↔ r ∈ t.rows ∧ p r = false := by
  simp [deleteWhere]

/-- Rewrite every row of a set by a function that keeps the primary key. -/
def modifyWhere (t : Table key) (p : ρ → Bool) (f : ρ → ρ) (hf : ∀ r, key (f r) = key r) :
    Table key where
  rows := t.rows.map fun r => if p r then f r else r
  nodup := by
    have h : (t.rows.map fun r => if p r then f r else r).map key = t.rows.map key := by
      rw [List.map_map]
      apply List.map_congr_left
      intro r _
      simp only [Function.comp]
      split <;> simp [hf]
    rw [h]
    exact t.nodup

theorem mem_modifyWhere (t : Table key) (p : ρ → Bool) (f : ρ → ρ)
    (hf : ∀ r, key (f r) = key r) (q : ρ) :
    q ∈ (t.modifyWhere p f hf).rows ↔ ∃ r ∈ t.rows, (if p r then f r else r) = q := by
  simp [modifyWhere]

variable [DecidableEq κ]

def find? (t : Table key) (k : κ) : Option ρ := t.rows.find? fun r => key r = k

theorem find?_eq_some (t : Table key) (k : κ) (r : ρ) :
    t.find? k = some r ↔ r ∈ t.rows ∧ key r = k := by
  constructor
  · intro h
    exact ⟨List.mem_of_find?_eq_some h,by simpa using List.find?_some h⟩
  · rintro ⟨hr,hk⟩
    have hs : (t.find? k).isSome := by
      simp only [find?,List.find?_isSome,decide_eq_true_eq]
      exact ⟨r,hr,hk⟩
    obtain ⟨q,hq⟩ := Option.isSome_iff_exists.mp hs
    have hqk : key q = k := by simpa using List.find?_some hq
    rw [hq,t.eq_of_key_eq (List.mem_of_find?_eq_some hq) hr (hqk.trans hk.symm)]

theorem find?_eq_none (t : Table key) (k : κ) : t.find? k = none ↔ ∀ r ∈ t.rows, key r ≠ k := by
  simp [find?]

theorem find?_key {t : Table key} {k : κ} {r : ρ} (h : t.find? k = some r) : key r = k :=
  ((t.find?_eq_some k r).mp h).2

theorem find?_of_mem {t : Table key} {r : ρ} (h : r ∈ t.rows) : t.find? (key r) = some r :=
  (t.find?_eq_some _ r).mpr ⟨h,rfl⟩

theorem find?_deleteWhere_other (t : Table key) {p : ρ → Bool} {k : κ}
    (h : ∀ r, key r = k → p r = false) : (t.deleteWhere p).find? k = t.find? k := by
  apply Option.ext
  intro r
  simp only [find?_eq_some,mem_deleteWhere]
  exact ⟨fun hr => ⟨hr.1.1,hr.2⟩,fun hr => ⟨⟨hr.1,h r hr.2⟩,hr.2⟩⟩

/-- Append a row; the primary key refuses a second row of the same key. -/
def insert (t : Table key) (r : ρ) : Option (Table key) :=
  if h : key r ∈ t.rows.map key then none
  else some ⟨t.rows ++ [r],by
    rw [List.map_append]
    refine t.nodup.append (by simp) ?_
    rw [List.map_singleton,List.disjoint_singleton]
    exact h⟩

theorem insert_eq_some {t u : Table key} {r : ρ} :
    t.insert r = some u ↔ key r ∉ t.rows.map key ∧ u.rows = t.rows ++ [r] := by
  unfold insert
  split_ifs with h
  · simp [h]
  · simp only [Option.some.injEq,h,not_false_eq_true,true_and]
    exact ⟨fun he => by rw [← he],fun he => Table.ext he.symm⟩

theorem insert_isSome {t : Table key} {r : ρ} (h : key r ∉ t.rows.map key) :
    ∃ u, t.insert r = some u ∧ u.rows = t.rows ++ [r] :=
  ⟨_,by unfold insert; rw [dif_neg h],rfl⟩

theorem find?_insert {t u : Table key} {r : ρ} (h : t.insert r = some u) (k : κ) :
    u.find? k = if key r = k then some r else t.find? k := by
  obtain ⟨hk,hu⟩ := insert_eq_some.mp h
  unfold find?
  rw [hu,List.find?_append]
  by_cases he : key r = k
  · have hn : (t.rows.find? fun q => key q = k) = none := by
      rw [List.find?_eq_none]
      intro q hq hqk
      exact hk (List.mem_map.mpr ⟨q,hq,by simpa [he] using hqk⟩)
    simp [hn,he]
  · simp [he]

/-- Append several rows, refusing the first one whose key is taken. -/
def insertAll (t : Table key) : List ρ → Option (Table key)
  | [] => some t
  | r::rs => (t.insert r).bind fun u => insertAll u rs

theorem insertAll_eq_some (t u : Table key) (rs : List ρ) :
    t.insertAll rs = some u ↔
      (rs.map key).Nodup ∧ (∀ r ∈ rs, key r ∉ t.rows.map key) ∧ u.rows = t.rows ++ rs := by
  induction rs generalizing t with
  | nil =>
    simp only [insertAll,Option.some.injEq,List.map_nil,List.nodup_nil,List.append_nil,true_and]
    exact ⟨fun he => by simp [he],fun h => Table.ext h.2.symm⟩
  | cons r rs ih =>
    simp only [insertAll,Option.bind_eq_some_iff,insert_eq_some,ih,List.map_cons,List.nodup_cons,
      List.mem_cons,forall_eq_or_imp]
    constructor
    · rintro ⟨v,⟨hr,hv⟩,hnd,hnew,hu⟩
      rw [hv,List.append_assoc,List.singleton_append] at hu
      refine ⟨⟨?_,hnd⟩,⟨hr,?_⟩,hu⟩
      · intro hm
        obtain ⟨q,hq,he⟩ := List.mem_map.mp hm
        exact hnew q hq (by rw [hv]; simp [he])
      · intro q hq hm
        exact hnew q hq (by rw [hv,List.map_append]; exact List.mem_append_left _ hm)
    · rintro ⟨⟨hn,hnd⟩,⟨hr,hnew⟩,hu⟩
      obtain ⟨v,hi,hv⟩ := insert_isSome hr
      refine ⟨v,insert_eq_some.mp hi,hnd,?_,by rw [hu,hv]; simp⟩
      intro q hq hm
      rw [hv,List.map_append,List.mem_append] at hm
      rcases hm with hm | hm
      · exact hnew q hq hm
      · simp only [List.map_cons,List.map_nil,List.mem_singleton] at hm
        exact hn (hm ▸ List.mem_map_of_mem hq)

theorem insertAll_isSome {t : Table key} {rs : List ρ} (hrs : (rs.map key).Nodup)
    (hnew : ∀ r ∈ rs, key r ∉ t.rows.map key) : ∃ u, t.insertAll rs = some u := by
  have hall : ((t.rows ++ rs).map key).Nodup := by
    rw [List.map_append]
    refine t.nodup.append hrs fun k hk hk' => ?_
    obtain ⟨r,hr,rfl⟩ := List.mem_map.mp hk'
    exact hnew r hr hk
  exact ⟨⟨t.rows ++ rs,hall⟩,(insertAll_eq_some _ _ _).mpr ⟨hrs,hnew,rfl⟩⟩

def modify (t : Table key) (k : κ) (f : ρ → ρ) (hf : ∀ r, key (f r) = key r) : Table key :=
  t.modifyWhere (fun r => key r = k) f hf

theorem mem_modify (t : Table key) (k : κ) (f : ρ → ρ) (hf : ∀ r, key (f r) = key r) (q : ρ) :
    q ∈ (t.modify k f hf).rows ↔ ∃ r ∈ t.rows, (if key r = k then f r else r) = q := by
  simp [modify,mem_modifyWhere]

theorem find?_modify (t : Table key) (k l : κ) (f : ρ → ρ) (hf : ∀ r, key (f r) = key r) :
    (t.modify k f hf).find? l = if l = k then (t.find? l).map f else t.find? l := by
  apply Option.ext
  intro q
  simp only [find?_eq_some,mem_modify]
  constructor
  · rintro ⟨⟨r,hr,hq⟩,hl⟩
    by_cases hk : key r = k
    · rw [if_pos hk] at hq
      have hlk : l = k := by rw [← hl,← hq,hf,hk]
      subst hlk
      rw [if_pos rfl,Option.map_eq_some_iff]
      exact ⟨r,(t.find?_eq_some _ r).mpr ⟨hr,hk⟩,hq⟩
    · rw [if_neg hk] at hq
      subst hq
      have hlk : l ≠ k := by rw [← hl]; exact hk
      rw [if_neg hlk]
      exact (t.find?_eq_some _ r).mpr ⟨hr,hl⟩
  · intro h
    by_cases hlk : l = k
    · subst hlk
      rw [if_pos rfl,Option.map_eq_some_iff] at h
      obtain ⟨r,hr,rfl⟩ := h
      obtain ⟨hm,hk⟩ := (t.find?_eq_some _ r).mp hr
      exact ⟨⟨r,hm,by rw [if_pos hk]⟩,by rw [hf,hk]⟩
    · rw [if_neg hlk] at h
      obtain ⟨hm,hk⟩ := (t.find?_eq_some _ q).mp h
      exact ⟨⟨q,hm,by rw [if_neg (hk ▸ hlk)]⟩,hk⟩

end Table
end WzonePortal
