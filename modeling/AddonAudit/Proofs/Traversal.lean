/-
  AddonAudit.Proofs.Traversal — lists that are worked through with a step that may fault.

  A traversal succeeds exactly when every step does, and then gives the results of the steps in
  order. So a part of a list that was worked through can be worked through too, and gives a part of
  the results.  A filter that succeeds has an answer for every member and keeps those with the
  answer yes.
-/
import Mathlib.Data.List.Induction
import Mathlib.Data.List.Nodup
import Mathlib.Data.List.Perm.Basic

namespace AddonAudit.Traversal

open List

variable {ε α β : Type} {f : α → Except ε β}

variable {b : β} {x : Except ε α} {g : α → β} {xs xs' : List α} {ys : List β}

/-- Two steps succeed exactly when the first does and the second does with its result. -/
theorem bind_ok_iff : x.bind f = .ok b ↔ ∃ a, x = .ok a ∧ f a = .ok b := by
  cases x with
  | error e => exact ⟨fun h => (by cases h), fun ⟨_, h, _⟩ => (by cases h)⟩
  | ok a => exact ⟨fun h => ⟨a, rfl, h⟩, fun ⟨_, ha, hb⟩ => (by cases ha; exact hb)⟩

theorem exists_bind_iff : (∃ b, x.bind f = .ok b) ↔ ∃ a, x = .ok a ∧ ∃ b, f a = .ok b := by
  cases x <;> simp [Except.bind]

theorem exists_bind_ok (hx : ∃ a, x = .ok a) (hf : ∀ a, ∃ b, f a = .ok b) :
    ∃ b, x.bind f = .ok b := by
  obtain ⟨a, ha⟩ := hx
  obtain ⟨b, hb⟩ := hf a
  exact ⟨b, bind_ok_iff.mpr ⟨a, ha, hb⟩⟩

theorem map_ok_iff : x.map g = .ok b ↔ ∃ a, x = .ok a ∧ g a = b := by
  cases x with
  | error e => exact ⟨fun h => (by cases h), fun ⟨_, h, _⟩ => (by cases h)⟩
  | ok a =>
    refine ⟨fun h => ⟨a, rfl, Except.ok.inj h⟩, ?_⟩
    rintro ⟨_, ha, rfl⟩
    cases ha
    rfl

/-- What evaluates to something succeeds. -/
theorem ok_of_toOption_map (h : x.toOption.map g = some b) : ∃ a, x = .ok a ∧ g a = b := by
  cases x with
  | error e => cases h
  | ok a => exact ⟨a, rfl, Option.some.inj h⟩

theorem forall₂_of_mapM_ok (h : xs.mapM f = .ok ys) : Forall₂ (fun x y => f x = .ok y) xs ys := by
  induction xs generalizing ys with
  | nil =>
    cases h
    exact .nil
  | cons x xs ih =>
    rw [mapM_cons] at h
    obtain ⟨z, hx, h⟩ := bind_ok_iff.mp h
    obtain ⟨zs, hxs, h⟩ := bind_ok_iff.mp h
    cases h
    exact .cons hx (ih hxs)

theorem mapM_ok_of_forall₂ (h : Forall₂ (fun x y => f x = .ok y) xs ys) : xs.mapM f = .ok ys := by
  induction h with
  | nil => rfl
  | cons hx _ ih =>
    rw [mapM_cons, hx, ih]
    rfl

/-- A traversal succeeds exactly with the results of its steps. -/
theorem mapM_ok_iff : xs.mapM f = .ok ys ↔ Forall₂ (fun x y => f x = .ok y) xs ys :=
  ⟨forall₂_of_mapM_ok, mapM_ok_of_forall₂⟩

theorem exists_of_mem_right {R : α → β → Prop} (h : Forall₂ R xs ys) {y : β} (hy : y ∈ ys) :
    ∃ x ∈ xs, R x y := by
  induction h with
  | nil => cases hy
  | cons hxy _ ih =>
    rcases mem_cons.mp hy with rfl | hy
    · exact ⟨_, mem_cons_self, hxy⟩
    · obtain ⟨x, hmem, hxy⟩ := ih hy
      exact ⟨x, mem_cons_of_mem _ hmem, hxy⟩

/-- What a traversal gives comes from its members. -/
theorem mem_of_mapM_ok (h : xs.mapM f = .ok ys) {y : β} (hy : y ∈ ys) : ∃ x ∈ xs, f x = .ok y :=
  exists_of_mem_right (forall₂_of_mapM_ok h) hy

theorem exists_of_mem_left {R : α → β → Prop} (h : Forall₂ R xs ys) {x : α} (hx : x ∈ xs) :
    ∃ y ∈ ys, R x y := exists_of_mem_right h.flip hx

/-- Every member of a traversal that succeeds is worked through with success. -/
theorem ok_of_mem_of_mapM_ok (h : xs.mapM f = .ok ys) {x : α} (hx : x ∈ xs) :
    ∃ y ∈ ys, f x = .ok y :=
  exists_of_mem_left (forall₂_of_mapM_ok h) hx

theorem map_of_mapM_ok {γ : Type} {g : β → γ} {g' : α → γ} (h : xs.mapM f = .ok ys)
    (hg : ∀ x ∈ xs, ∀ y, f x = .ok y → g y = g' x) : ys.map g = xs.map g' := by
  induction forall₂_of_mapM_ok h with
  | nil => rfl
  | cons hx htail ih =>
    rw [map_cons, map_cons, hg _ mem_cons_self _ hx,
      ih (mapM_ok_of_forall₂ htail) fun x hmem => hg x (mem_cons_of_mem _ hmem)]

theorem mapM_ok_map (h : ∀ x ∈ xs, f x = .ok (g x)) : xs.mapM f = .ok (xs.map g) := by
  refine mapM_ok_of_forall₂ ?_
  rw [forall₂_map_right_iff]
  exact forall₂_same.mpr h

/-- A traversal succeeds if each of its steps does. -/
theorem mapM_ok_of_forall (xs : List α) (h : ∀ x ∈ xs, ∃ y, f x = .ok y) :
    ∃ ys, xs.mapM f = .ok ys := by
  induction xs with
  | nil => exact ⟨[], rfl⟩
  | cons x xs ih =>
    obtain ⟨y, hy⟩ := h x mem_cons_self
    obtain ⟨ys, hys⟩ := ih fun z hz => h z (mem_cons_of_mem x hz)
    exact ⟨y :: ys, mapM_ok_of_forall₂ (.cons hy (forall₂_of_mapM_ok hys))⟩

/-- Treating each result of a step is treating the results of the traversal. -/
theorem mapM_map_ok {γ : Type} {g : β → γ} (xs : List α) :
    xs.mapM (fun x => (f x).map g) = (xs.mapM f).map (map g) := by
  induction xs with
  | nil => rfl
  | cons x xs ih =>
    rw [mapM_cons, mapM_cons, ih]
    cases f x with
    | error e => rfl
    | ok y => cases xs.mapM f <;> rfl

/-- **A part of a list that can be worked through can be worked through**, and gives a part of the
    results. -/
theorem mapM_sublist (hsub : xs'.Sublist xs) :
    ∀ {ys : List β}, xs.mapM f = .ok ys → ∃ ys', xs'.mapM f = .ok ys' ∧ ys'.Sublist ys := by
  induction hsub with
  | slnil => exact fun h => ⟨_, h, Sublist.refl _⟩
  | cons x hsub ih =>
    intro ys h
    cases forall₂_of_mapM_ok h with
    | cons hy hys =>
      obtain ⟨ys', h', hsub'⟩ := ih (mapM_ok_of_forall₂ hys)
      exact ⟨ys', h', hsub'.cons _⟩
  | cons_cons x hsub ih =>
    intro ys h
    cases forall₂_of_mapM_ok h with
    | cons hy hys =>
      obtain ⟨ys', h', hsub'⟩ := ih (mapM_ok_of_forall₂ hys)
      exact ⟨_, mapM_ok_of_forall₂ (Forall₂.cons hy (forall₂_of_mapM_ok h')), hsub'.cons_cons _⟩

/-- A list can be worked through if each of its members is treated like one of a list that can, and
    then nothing new comes of it. -/
theorem mapM_cover (h : xs.mapM f = .ok ys) (hcover : ∀ x' ∈ xs', ∃ x ∈ xs, f x' = f x) :
    ∃ ys', xs'.mapM f = .ok ys' ∧ ys' ⊆ ys := by
  induction xs' with
  | nil => exact ⟨[], rfl, nil_subset _⟩
  | cons x' xs' ih =>
    obtain ⟨x, hx, heq⟩ := hcover x' mem_cons_self
    obtain ⟨y, hmem, hy⟩ := ok_of_mem_of_mapM_ok h hx
    obtain ⟨ys', h', hsub'⟩ := ih fun z hz => hcover z (mem_cons_of_mem _ hz)
    refine ⟨y :: ys', mapM_ok_of_forall₂ (Forall₂.cons (heq.trans hy) (forall₂_of_mapM_ok h')), ?_⟩
    exact cons_subset.mpr ⟨hmem, hsub'⟩

/-- If each step succeeds in another way, with a related result, so does the traversal. -/
theorem mapM_related {f' : α → Except ε β} {R : β → β → Prop}
    (hstep : ∀ x y, f x = .ok y → ∃ y', f' x = .ok y' ∧ R y' y) :
    ∀ {ys : List β}, xs.mapM f = .ok ys →
      ∃ ys', xs.mapM f' = .ok ys' ∧ ∀ y' ∈ ys', ∃ y ∈ ys, R y' y := by
  induction xs with
  | nil => exact fun _ => ⟨[], rfl, fun _ h => by cases h⟩
  | cons x xs ih =>
    intro ys h
    cases forall₂_of_mapM_ok h with
    | @cons _ y _ ys hy hys =>
      obtain ⟨y', hy', hrel⟩ := hstep x y hy
      obtain ⟨ys', h', hrels⟩ := ih (mapM_ok_of_forall₂ hys)
      refine ⟨y' :: ys', mapM_ok_of_forall₂ (Forall₂.cons hy' (forall₂_of_mapM_ok h')), ?_⟩
      intro z hz
      rcases mem_cons.mp hz with rfl | hz
      · exact ⟨y, mem_cons_self, hrel⟩
      · obtain ⟨y₁, hmem, hrel₁⟩ := hrels z hz
        exact ⟨y₁, mem_cons_of_mem _ hmem, hrel₁⟩

/-- Working through a list in another order gives the results in another order. -/
theorem mapM_perm (hperm : xs'.Perm xs) (h : xs.mapM f = .ok ys) :
    ∃ ys', xs'.mapM f = .ok ys' ∧ ys'.Perm ys := by
  obtain ⟨ys', hall, hperm'⟩ := perm_comp_forall₂ hperm (forall₂_of_mapM_ok h)
  exact ⟨ys', mapM_ok_of_forall₂ hall, hperm'⟩

/-! Members told once. -/

section Once

variable [BEq α] [LawfulBEq α] [BEq β] [LawfulBEq β]

theorem eraseDups_concat (xs : List α) (x : α) :
    (xs ++ [x]).eraseDups = if x ∈ xs then xs.eraseDups else xs.eraseDups ++ [x] := by
  rw [eraseDups_append]
  split
  · rename_i hmem
    simp [removeAll, hmem]
  · rename_i hmem
    simp [removeAll, hmem, eraseDups_cons]

theorem nodup_eraseDups (xs : List α) : xs.eraseDups.Nodup := by
  induction xs using reverseRecOn with
  | nil => exact nodup_nil
  | append_singleton xs x ih =>
    rw [eraseDups_concat]
    split
    · exact ih
    · rename_i hnew
      rw [← concat_eq_append]
      exact Nodup.concat (fun hmem => hnew (mem_eraseDups.mp hmem)) ih

theorem eraseDups_map (hinj : ∀ x ∈ xs, ∀ x' ∈ xs, g x = g x' → x = x') :
    (xs.map g).eraseDups = xs.eraseDups.map g := by
  induction xs using reverseRecOn with
  | nil => rfl
  | append_singleton xs x ih =>
    have hmem : g x ∈ xs.map g ↔ x ∈ xs := by
      refine ⟨fun h => ?_, mem_map_of_mem⟩
      obtain ⟨x', hx', heq⟩ := mem_map.mp h
      exact hinj x' (by simp [hx']) x (by simp) heq ▸ hx'
    rw [map_append, map_singleton, eraseDups_concat, eraseDups_concat,
      ih fun a ha b hb => hinj a (by simp [ha]) b (by simp [hb])]
    simp only [hmem]
    split
    · rfl
    · rw [map_append, map_singleton]

end Once

/-! Filters that may fault. -/

section Filter

variable {f g : α → Except ε Bool} {xs ys : List α}

theorem filterAuxM_eq (f : α → Except ε Bool) (xs acc : List α) :
    filterAuxM f xs acc = (filterAuxM f xs []).map (· ++ acc) := by
  induction xs generalizing acc with
  | nil => rfl
  | cons x xs ih =>
    rw [filterAuxM, filterAuxM]
    cases f x with
    | error e => rfl
    | ok b =>
      show filterAuxM f xs (cond b (x :: acc) acc)
        = (filterAuxM f xs (cond b [x] [])).map (· ++ acc)
      rw [ih (cond b (x :: acc) acc), ih (cond b [x] [])]
      cases filterAuxM f xs [] with
      | error e => rfl
      | ok zs => cases b <;> simp [Except.map]

theorem filterM_cons (f : α → Except ε Bool) (x : α) (xs : List α) :
    (x :: xs).filterM f = (f x).bind fun b => (xs.filterM f).map fun ys =>
    if b then x :: ys else ys := by
  unfold filterM
  rw [filterAuxM]
  cases f x with
  | error e => rfl
  | ok b =>
    show (filterAuxM f xs (cond b [x] [])).bind _ = ((filterAuxM f xs []).bind _).map _
    rw [filterAuxM_eq f xs (cond b [x] [])]
    cases filterAuxM f xs [] with
    | error e => rfl
    | ok zs => cases b <;> simp [Except.map, Except.bind, pure, Except.pure]

theorem filterM_congr (h : ∀ x ∈ xs, f x = g x) : xs.filterM f = xs.filterM g := by
  induction xs with
  | nil => rfl
  | cons x xs ih =>
    rw [filterM_cons, filterM_cons, h x mem_cons_self, ih fun y hy => h y (mem_cons_of_mem x hy)]

theorem filterM_map {f : β → Except ε Bool} (k : α → β) (xs : List α) :
    (xs.map k).filterM f = (xs.filterM fun x => f (k x)).map (map k) := by
  induction xs with
  | nil => rfl
  | cons x xs ih =>
    rw [map_cons, filterM_cons, filterM_cons, ih]
    cases f (k x) with
    | error e => rfl
    | ok b =>
      cases xs.filterM fun x => f (k x) with
      | error e => rfl
      | ok zs => cases b <;> rfl

/-- What a filter that succeeds keeps, and that it can be asked about all. -/
theorem filterM_ok (h : xs.filterM f = .ok ys) :
    (∀ x ∈ xs, ∃ b, f x = .ok b) ∧ ∀ x, x ∈ ys ↔ x ∈ xs ∧ f x = .ok true := by
  induction xs generalizing ys with
  | nil =>
    cases h
    exact ⟨by simp, by simp⟩
  | cons x xs ih =>
    rw [filterM_cons] at h
    obtain ⟨b, hb, h⟩ := bind_ok_iff.mp h
    obtain ⟨zs, hzs, rfl⟩ := map_ok_iff.mp h
    obtain ⟨hall, hmem⟩ := ih hzs
    refine ⟨forall_mem_cons.mpr ⟨⟨b, hb⟩, hall⟩, fun y => ?_⟩
    cases b with
    | true =>
      rw [if_pos rfl, mem_cons, mem_cons, hmem, or_and_right]
      refine or_congr ⟨fun heq => ⟨heq, heq ▸ hb⟩, And.left⟩ Iff.rfl
    | false =>
      rw [if_neg Bool.false_ne_true, hmem, mem_cons, or_and_right]
      refine ⟨.inr, fun h => h.resolve_left ?_⟩
      rintro ⟨rfl, htrue⟩
      rw [hb] at htrue
      cases htrue

end Filter

end AddonAudit.Traversal
