/-
  AddonAudit.Proofs.Workspace.View — what a tree shows at each place.

  A view says of each place whether there is a file, with its bytes, a folder or nothing.  Putting a
  file or an empty folder at a free place, or removing a file, changes the view at that place and
  nowhere else.
-/
import AddonAudit.Proofs.Workspace.Places
import Mathlib

namespace AddonAudit

open List Function

/-! ## §1. Views. -/

/-- What stands at a place: a file with its bytes, or a folder. -/
inductive Kind where
  | file (bytes : ByteArray)
  | folder
  deriving DecidableEq

/-- What is shown at each place. -/
abbrev View := List String → Option Kind

namespace Entry

/-- What an entry is, the members of a folder aside. -/
def kind : Entry → Kind
  | .file bytes => .file bytes
  | .folder _ => .folder

/-- What a tree shows at each place. -/
def view (r : Entry) : View := fun t => (r.get? t).map kind

variable {r e m new : Entry} {s t q : List String}

@[simp] theorem view_nil (r : Entry) : r.view [] = some r.kind := rfl

theorem view_cons (r : Entry) (n : String) (ns : List String) :
    r.view (n :: ns) = (r.member? n).bind fun m => m.view ns := by
  unfold view
  rw [get?]
  cases r.member? n <;> rfl

theorem view_append (h : r.get? s = some e) (t : List String) : r.view (s ++ t) = e.view t := by
  unfold view
  rw [get?_append, h]
  rfl

theorem view_of_get? (h : r.get? s = some e) : r.view s = some e.kind := by
  unfold view
  rw [h]
  rfl

theorem get?_of_view {k : Kind} (h : r.view s = some k) : ∃ e, r.get? s = some e ∧ e.kind = k :=
  Option.map_eq_some_iff.mp h

theorem kind_eq_folder_iff : e.kind = .folder ↔ ∃ ms, e = .folder ms := by
  cases e with
  | file b => simp [kind]
  | folder ms => simp [kind]

theorem kind_eq_file_iff {b : ByteArray} : e.kind = .file b ↔ e = .file b := by
  cases e with
  | file b' => simp [kind]
  | folder ms => simp [kind]

/-- **Above whatever is shown there are folders.** -/
theorem folder_of_view_append (ht : t ≠ []) (h : r.view (s ++ t) ≠ none) :
    r.view s = some .folder := by
  cases hs : r.get? s with
  | none =>
    unfold view at h
    rw [get?_append, hs] at h
    exact absurd rfl h
  | some e =>
    rw [view_append hs] at h
    rw [view_of_get? hs]
    cases e with
    | folder ms => rfl
    | file b =>
      cases t with
      | nil => exact absurd rfl ht
      | cons n ns => exact absurd (view_cons (.file b) n ns) h

theorem isFile_of_kind (h : m.kind = e.kind) : m.isFile = e.isFile := by
  cases m <;> cases e <;> first | rfl | cases h

/-- A place for an entry: its folder is there, and there is no folder in its place. -/
def Free (r : Entry) (t : List String) : Prop :=
  ∃ s n, t = s ++ [n] ∧ r.view s = some .folder ∧ r.view t ≠ some .folder

theorem Free.of_file {b : ByteArray} (hr : r.kind = .folder) (h : r.view t = some (.file b)) :
    r.Free t := by
  rcases eq_nil_or_concat' t with rfl | ⟨s, n, rfl⟩
  · rw [view_nil, hr] at h
    cases h
  · exact ⟨s, n, rfl, folder_of_view_append (t := [n]) (by simp) (by simp [h]), by simp [h]⟩

/-! ## §2. Changes. -/

theorem view_member {c : Entry} {n : String} (hc : r.member? n = some c) :
    (fun q => r.view (n :: q)) = c.view := by
  funext q
  rw [view_cons, hc, Option.bind_some]

/-- What is shown below a member is what the member shows. -/
theorem view_setMember {n : String} {k : Option Kind} (hr : r.kind = .folder)
    (he : e.view = update (fun q => r.view (n :: q)) t k) :
    (folder (setMember n e r.members)).view = update r.view (n :: t) k := by
  obtain ⟨ms, rfl⟩ := kind_eq_folder_iff.mp hr
  funext q
  cases q with
  | nil => rw [update_of_ne (by simp), view_nil, view_nil]; rfl
  | cons j q =>
    rw [view_cons, member?_setMember, members]
    by_cases hj : j = n
    · rw [if_pos hj, Option.bind_some, he, hj]
      by_cases hq : q = t
      · rw [hq, update_self, update_self]
      · rw [update_of_ne hq, update_of_ne (by simpa using hq)]
    · rw [if_neg hj, update_of_ne (by simp [hj]), view_cons]

/-- **What is put at a free place shows there and nowhere else**, if it holds nothing itself. -/
theorem view_put (ht : r.Free t) (hnew : ∀ n ns, new.view (n :: ns) = none) :
    (put new t r).view = update r.view t (some new.kind) := by
  obtain ⟨s, n, rfl, hs, hfree⟩ := ht
  induction s generalizing r with
  | nil =>
    refine view_setMember (Option.some.inj hs) (funext fun q => ?_)
    cases q with
    | nil =>
      rw [update_self]
      rfl
    | cons k q =>
      -- nothing was below the place, and nothing is
      have hnone : r.view (n :: k :: q) = none := by
        by_contra hsome
        exact hfree (folder_of_view_append (s := [n]) (t := k :: q) (by simp) hsome)
      rw [update_of_ne (by simp), hnone]
      exact hnew k q
  | cons k s ih =>
    cases r with
    | file b => cases hs
    | folder rs =>
      rw [view_cons] at hs
      obtain ⟨c, hc, hs⟩ := Option.bind_eq_some_iff.mp hs
      rw [cons_append, view_cons, hc, Option.bind_some] at hfree
      rw [cons_append, put, hc]
      refine view_setMember rfl ?_
      rw [view_member hc]
      exact ih hs hfree

theorem view_file_cons (b : ByteArray) (n : String) (ns : List String) :
    (file b).view (n :: ns) = none :=
  view_cons (file b) n ns

theorem view_empty_cons (n : String) (ns : List String) : empty.view (n :: ns) = none :=
  view_cons empty n ns

/-- A file that is overwritten is on no way to another place. -/
theorem covers_put {b : ByteArray} (hr : r.kind = .folder) (ht : r.view t = some (.file b))
    (b' : ByteArray) : r.Covers (put (file b') t r) t := by
  intro q m hm _
  by_cases hq : q = t
  · subst hq
    rw [view_of_get? hm] at ht
    rw [kind_eq_file_iff.mp (Option.some.inj ht)]
    exact ⟨_, get?_put_self _ _ _, rfl⟩
  · have hview : (put (file b') t r).view q = some m.kind := by
      rw [view_put (.of_file hr ht) (view_file_cons b'), update_of_ne hq, view_of_get? hm]
    obtain ⟨m', hm', hkind⟩ := get?_of_view hview
    exact ⟨m', hm', isFile_of_kind hkind⟩

theorem member?_filter (n k : String) (ms : List (String × Entry)) :
    (folder (ms.filter (·.1 != n))).member? k = if k = n then none else (folder ms).member? k := by
  show ((ms.filter (·.1 != n)).find? (·.1 == k)).map (·.2) = _
  rw [find?_filter]
  by_cases hk : k = n
  · rw [if_pos hk, find?_eq_none.mpr fun x _ => by simp [hk]]
    rfl
  · rw [if_neg hk]
    show _ = (ms.find? (·.1 == k)).map (·.2)
    congr 2
    funext x
    by_cases hx : x.1 = k
    · simp [hx, hk]
    · simp [hx]

/-- **A file that is removed is missing in its place and nowhere else.** -/
theorem view_remove {b : ByteArray} (hr : r.kind = .folder) (ht : r.view t = some (.file b)) :
    (remove t r).view = update r.view t none := by
  induction t generalizing r with
  | nil =>
    rw [view_nil, hr] at ht
    cases ht
  | cons n t ih =>
    obtain ⟨ms, rfl⟩ := kind_eq_folder_iff.mp hr
    rw [view_cons] at ht
    obtain ⟨c, hc, hbelow⟩ := Option.bind_eq_some_iff.mp ht
    cases t with
    | nil =>
      funext q
      show (folder (ms.filter (·.1 != n))).view q = _
      cases q with
      | nil => rw [update_of_ne (by simp), view_nil, view_nil]; rfl
      | cons k q =>
        rw [view_cons, member?_filter]
        by_cases hk : k = n
        · subst hk
          cases q with
          | nil => simp
          | cons k' q =>
            rw [view_nil] at hbelow
            -- there was nothing below the file
            obtain rfl := kind_eq_file_iff.mp (Option.some.inj hbelow)
            rw [update_of_ne (by simp), view_cons, hc, if_pos rfl]
            exact (view_file_cons b k' q).symm
        · rw [if_neg hk, update_of_ne (by simp [hk]), view_cons]
    | cons n' t =>
      have hfolder : c.kind = .folder := by
        have habove := folder_of_view_append (r := c) (s := []) (t := n' :: t) (by simp)
          (by simp [hbelow])
        simpa using habove
      rw [remove, hc]
      · refine view_setMember hr ?_
        rw [view_member hc]
        exact ih hfolder hbelow
      · exact cons_ne_nil _ _

end Entry

/-! ## §3. Reading what was written. -/

namespace World

variable {w : World} {p : String} {b : ByteArray}

/-- **A file that is overwritten is found with its new content.** -/
theorem find_put (hcwd : Path.isAbsolute w.cwd) (h : w.find p = .ok (.file b)) (b' : ByteArray) :
    (w.put p (.file b')).find p = .ok (.file b') := by
  obtain ⟨ms, hroot⟩ := root_of_find h
  have hcovers : w.root.Covers (w.put p (.file b')).root (w.placeOf p) := by
    rw [root_put]
    exact Entry.covers_put (Entry.kind_eq_folder_iff.mpr ⟨ms, hroot⟩)
      (Entry.view_of_get? (get?_of_find hcwd h)) b'
  obtain ⟨x', hx', hget'⟩ := find_of_covers hcwd (cwd_put w p _) h hcovers
  rw [root_put, Entry.get?_put_self] at hget'
  rw [hx', Option.some.inj hget']

/-- **A text that is written into a file is read back**, with its line ends unified. -/
theorem readText_put (hcwd : Path.isAbsolute w.cwd) (h : w.find p = .ok (.file b)) (s : String) :
    (w.put p (.file s.toUTF8)).readText p = .ok (String.ofList (Text.unifyNewlines s.toList)) :=
  readText_of_find (find_put hcwd h _)

end World

end AddonAudit
