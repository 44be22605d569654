/-
  AddonAudit.Proofs.Audit.Detection — which addons are found for some paths.

  A path belongs to the nearest folder with a manifest, at most ten folders up.  If a path leads to
  the folder of an addon, only such paths count and the addons of all others are left out; each of
  them counts as often as it is given.  If no path does, the addons of all paths are found, each of
  them once.
-/
import AddonAudit.Audit.Detection
import AddonAudit.Proofs.Traversal
import AddonAudit.Proofs.Workspace.Places
import Mathlib.Logic.Function.Iterate

namespace AddonAudit

open List Function AddonAudit.Path

/-! ## §1. The nearest addon. -/

namespace Detection

variable {w : World}

/-- Whether a folder is the nearest one with a manifest, among the first `levels` from another one
    up. -/
def Nearest (w : World) (levels : Nat) (start m : String) : Prop :=
  ∃ k < levels, m = Path.parent^[k] start ∧ hasManifest w m = true ∧
    ∀ j < k, hasManifest w (Path.parent^[j] start) = false

/-- The folder from which the addon of a path is looked for: the path itself, or the folder of a
    file. -/
def startOf (w : World) (p : String) : String :=
  if w.isFile (w.resolve p) then Path.parent (w.resolve p) else w.resolve p

/-- Whether a path belongs to the addon in a folder. -/
def Belongs (w : World) (p m : String) : Prop := Nearest w searchDepth (startOf w p) m

variable {m start p : String}

/-- A folder with a manifest is the nearest one from itself up. -/
theorem nearest_of_hasManifest (levels : Nat) (h : hasManifest w start) :
    Nearest w (levels + 1) start m ↔ m = start := by
  constructor
  · rintro ⟨k, -, rfl, -, hbefore⟩
    cases k with
    | zero => rfl
    | succ k =>
      have hstart := hbefore 0 (Nat.succ_pos k)
      rw [iterate_zero_apply, h] at hstart
      cases hstart
  · rintro rfl
    exact ⟨0, Nat.succ_pos levels, rfl, h, fun j hj => absurd hj (Nat.not_lt_zero j)⟩

/-- From a folder without a manifest the search goes on above it. -/
theorem nearest_succ (levels : Nat) (h : hasManifest w start = false) :
    Nearest w (levels + 1) start m ↔ Nearest w levels (parent start) m := by
  constructor
  · rintro ⟨k, hk, rfl, hm, hbefore⟩
    cases k with
    | zero =>
      rw [iterate_zero_apply, h] at hm
      cases hm
    | succ k =>
      refine ⟨k, by omega, iterate_succ_apply parent k start, hm, fun j hj => ?_⟩
      rw [← iterate_succ_apply]
      exact hbefore (j + 1) (by omega)
  · rintro ⟨k, hk, rfl, hm, hbefore⟩
    refine ⟨k + 1, by omega, (iterate_succ_apply parent k start).symm, hm, fun j hj => ?_⟩
    cases j with
    | zero => exact h
    | succ j =>
      rw [iterate_succ_apply]
      exact hbefore j (by omega)

/-- **The search finds the nearest folder with a manifest.** -/
theorem searchUp_eq_some_iff {levels : Nat} : searchUp w levels start = some m ↔
    Nearest w levels start m := by
  induction levels generalizing start with
  | zero =>
    constructor
    · intro h
      cases h
    · rintro ⟨k, hk, -⟩
      exact absurd hk (Nat.not_lt_zero k)
  | succ levels ih =>
    unfold searchUp
    cases hstart : hasManifest w start with
    | true =>
      rw [if_pos rfl, nearest_of_hasManifest levels hstart, Option.some.injEq, eq_comm]
    | false =>
      rw [if_neg Bool.false_ne_true]
      by_cases htop : parent start = start
      · -- above the root there is nothing but the root
        rw [if_pos (by simpa using htop)]
        constructor
        · intro h
          cases h
        · rintro ⟨k, -, rfl, hm, -⟩
          rw [iterate_fixed htop, hstart] at hm
          cases hm
      · rw [if_neg (by simpa using htop), ih, nearest_succ levels hstart]

theorem addonOf?_eq_some_iff : addonOf? w p = some m ↔ Belongs w p m := searchUp_eq_some_iff

/-! ## §2. Folders of addons. -/

theorem isName_of_mem_names {n : String} (h : n ∈ Manifest.names) : IsName n ∧ n ≠ ".." := by
  simp only [Manifest.names, mem_cons, not_mem_nil, or_false] at h
  rcases h with rfl | rfl
  · exact ⟨⟨by decide, by decide, by decide⟩, by decide⟩
  · exact ⟨⟨by decide, by decide, by decide⟩, by decide⟩

/-- Whether there is a manifest in a folder does not depend on how the path to it is written. -/
theorem hasManifest_resolve (hcwd : isAbsolute w.cwd) {ms : List (String × Entry)}
    (h : followNames [w.root] (components (join w.cwd p)) = .ok (.folder ms)) :
    hasManifest w (w.resolve p) = hasManifest w p := by
  unfold hasManifest
  rw [Bool.eq_iff_iff, any_eq_true, any_eq_true]
  refine exists_congr fun n => and_congr_right fun hn => ?_
  obtain ⟨hname, hup⟩ := isName_of_mem_names hn
  have hfind := World.find_child_resolve hcwd h hname hup
  have hholds : ∀ q, w.holds q ↔ ∃ x, w.find q = .ok x := by
    intro q
    unfold World.holds
    cases w.find q with
    | ok x => exact ⟨fun _ => ⟨x, rfl⟩, fun _ => rfl⟩
    | error a => exact ⟨fun h => (by cases h), fun ⟨x, hx⟩ => (by cases hx)⟩
  rw [hholds, hholds]
  exact exists_congr hfind

/-- **The folder of an addon belongs to itself**, in its absolute form, and to nothing else. -/
theorem belongs_iff_of_isAddonFolder (hcwd : isAbsolute w.cwd) (h : isAddonFolder w p) :
    Belongs w p m ↔ m = w.resolve p := by
  unfold isAddonFolder at h
  obtain ⟨hfolder, hmanifest⟩ := Bool.and_eq_true_iff.mp h
  obtain ⟨ms, hms⟩ : ∃ ms, w.find (tidy p) = .ok (.folder ms) := by
    unfold World.isFolder at hfolder
    cases hfind : w.find (tidy p) with
    | error a =>
      rw [hfind] at hfolder
      cases hfolder
    | ok x =>
      rw [hfind] at hfolder
      cases x with
      | file b => cases hfolder
      | folder ms => exact ⟨ms, rfl⟩
  have hwalk := World.followNames_of_find hms
  rw [components_join_tidy] at hwalk
  have hnofile : w.isFile (w.resolve p) = false := by
    unfold World.isFile
    rw [World.find_resolve hcwd hwalk]
    rfl
  unfold Belongs startOf
  rw [if_neg (by rw [hnofile]; exact Bool.false_ne_true)]
  have hthere : hasManifest w (w.resolve p) := (hasManifest_resolve hcwd hwalk).trans hmanifest
  exact nearest_of_hasManifest 9 hthere

end Detection

/-! ## §3. The addons of paths. -/

namespace Text

theorem mem_sortedSet {xs : List String} {x : String} : x ∈ sortedSet xs ↔ x ∈ xs := by
  unfold sortedSet
  rw [mem_eraseDups, mem_mergeSort]

theorem nodup_sortedSet (xs : List String) : (sortedSet xs).Nodup := Traversal.nodup_eraseDups _

end Text

namespace Detection

variable {w : World} {paths : List String}

/-- The paths that lead to the folders of addons. -/
def folders (w : World) (paths : List String) : List String :=
  (paths.filter (· != "")).filter (isAddonFolder w)

theorem mem_folders {p : String} : p ∈ folders w paths ↔ p ∈ paths ∧ p ≠ "" ∧
    isAddonFolder w p := by
  unfold folders
  rw [mem_filter, mem_filter, bne_iff_ne, and_assoc]

theorem addonsOf_of_folders (h : folders w paths ≠ []) :
    addonsOf w paths = (folders w paths).map w.resolve := by
  unfold addonsOf
  exact if_neg (by simpa [folders] using h)

theorem addonsOf_of_no_folders (h : folders w paths = []) :
    addonsOf w paths = Text.sortedSet ((paths.filter (· != "")).filterMap (addonOf? w)) := by
  have hnone : ∀ p ∈ paths.filter (· != ""), isAddonFolder w p = false := by
    intro p hp
    rw [← Bool.not_eq_true]
    exact filter_eq_nil_iff.mp h p hp
  have hall : (paths.filter (· != "")).filter (fun p => !isAddonFolder w p) =
      paths.filter (· != "") :=
    filter_eq_self.mpr fun p hp => by rw [hnone p hp]; rfl
  unfold addonsOf
  dsimp only
  rw [if_pos (by rw [show (paths.filter (· != "")).filter (isAddonFolder w) = [] from h]; rfl),
    hall]

/-- **Exactly which addons are found for some paths.**  A folder is found if it is the addon of a
    path that leads to the folder of an addon, or of any path if none of them does.  None is found
    twice exactly if no two paths lead to the folder of the same addon. -/
theorem addonsOf_exact (hcwd : Path.isAbsolute w.cwd = true) (paths : List String) :
    (∀ m, m ∈ addonsOf w paths ↔ ∃ p ∈ paths, p ≠ "" ∧ Belongs w p m ∧
      (isAddonFolder w p = true ∨ ∀ q ∈ paths, q ≠ "" → isAddonFolder w q = false)) ∧
    ((addonsOf w paths).Nodup ↔ ((folders w paths).map w.resolve).Nodup) := by
  by_cases hfolders : folders w paths = []
  · -- without the folder of an addon, files are looked up
    have hnone : ∀ q ∈ paths, q ≠ "" → isAddonFolder w q = false := by
      intro q hq hne
      rw [← Bool.not_eq_true]
      intro hfolder
      have hmem := mem_folders.mpr ⟨hq, hne, hfolder⟩
      rw [hfolders] at hmem
      cases hmem
    rw [addonsOf_of_no_folders hfolders, hfolders]
    refine ⟨fun m => ?_, fun _ => List.nodup_nil, fun _ => Text.nodup_sortedSet _⟩
    rw [Text.mem_sortedSet, List.mem_filterMap]
    constructor
    · rintro ⟨p, hp, hm⟩
      obtain ⟨hp, hne⟩ := List.mem_filter.mp hp
      exact ⟨p, hp, by simpa using hne, addonOf?_eq_some_iff.mp hm, .inr hnone⟩
    · rintro ⟨p, hp, hne, hm, -⟩
      exact ⟨p, List.mem_filter.mpr ⟨hp, by simpa using hne⟩, addonOf?_eq_some_iff.mpr hm⟩
  · rw [addonsOf_of_folders hfolders]
    refine ⟨fun m => ?_, Iff.rfl⟩
    rw [List.mem_map]
    constructor
    · rintro ⟨p, hp, rfl⟩
      obtain ⟨hp, hne, hfolder⟩ := mem_folders.mp hp
      exact ⟨p, hp, hne, (belongs_iff_of_isAddonFolder hcwd hfolder).mpr rfl, .inl hfolder⟩
    · rintro ⟨p, hp, hne, hm, hfolder | hnone⟩
      · exact ⟨p, mem_folders.mpr ⟨hp, hne, hfolder⟩,
          ((belongs_iff_of_isAddonFolder hcwd hfolder).mp hm).symm⟩
      · -- no path leads to the folder of an addon, but one was found
        obtain ⟨q, hq⟩ := List.exists_mem_of_ne_nil _ hfolders
        obtain ⟨hq, hqne, hqfolder⟩ := mem_folders.mp hq
        rw [hnone q hq hqne] at hqfolder
        cases hqfolder

/-- Two addons, one of them with a source file. -/
def twoAddons : World where
  root := .folder [
    ("m", .folder [("__manifest__.py", .file ⟨#[]⟩)]),
    ("n", .folder [("__manifest__.py", .file ⟨#[]⟩), ("a.py", .file ⟨#[]⟩)])]

/-- The file alone: its addon is found, once for two paths. -/
theorem addonsOf_exact_twoAddons :
    "/n" ∈ addonsOf twoAddons ["n/a.py", "n/b"] ∧ (addonsOf twoAddons ["n/a.py", "n/b"]).Nodup := by
  obtain ⟨hmem, hnodup⟩ := addonsOf_exact (w := twoAddons) (by decide) ["n/a.py", "n/b"]
  have hnone : ∀ q ∈ ["n/a.py", "n/b"], q ≠ "" → isAddonFolder twoAddons q = false := by decide
  refine ⟨(hmem "/n").mpr ⟨"n/a.py", by decide, by decide, ?_, .inr hnone⟩, hnodup.mpr (by decide)⟩
  exact addonOf?_eq_some_iff.mp (by decide)

/-- **An addon that is lost, and one that is found twice.**  Beside the folder of an addon, a file
    of another one does not count; and a folder that is given twice counts twice. -/
theorem addonsOf_loses_and_repeats :
    (Belongs twoAddons "n/a.py" "/n" ∧ "/n" ∉ addonsOf twoAddons ["m", "n/a.py"]) ∧
      ¬ (addonsOf twoAddons ["m", "m"]).Nodup := by
  refine ⟨⟨addonOf?_eq_some_iff.mp (by decide), by decide⟩, by decide⟩

end Detection

end AddonAudit
