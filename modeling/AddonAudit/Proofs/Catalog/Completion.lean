/-
  AddonAudit.Proofs.Catalog.Completion — catalogs that are checked to their end.

  Why a translation does not take the arguments of its message is a finding, and the next entry is
  looked at. Only the arguments of a message with braces may fail to be told, and that ends the
  check of all catalogs.
-/
import AddonAudit.Proofs.Checks.Names
import AddonAudit.Proofs.Placeholder.Arguments

namespace AddonAudit.Catalog

open Traversal

open Braces (placeholders Unreadable)

/-- Whether the braces of an entry are tried: it is in use, translated and marked, and its percent
    placeholders fit. -/
def Entry.IsTried (e : Entry) : Prop :=
  e.obsolete = false ∧ e.text ≠ "" ∧ "python-format" ∈ e.flags ∧ Printf.check e.id e.text = .ok ()

/-- No entry that is tried has an unreadable field. -/
def Sound (es : List Entry) : Prop :=
  ∀ e ∈ es, e.IsTried → ∀ name ∈ placeholders e.id, ¬ Unreadable name

theorem entryFindings_ok_iff (path : String) {e : Entry} (hused : e.obsolete = false) :
    (∃ found, entryFindings path e = .ok found) ↔
    (e.IsTried → ∀ name ∈ placeholders e.id, ¬ Unreadable name) := by
  have hmisfit : (∃ found, entryFindings path e = .ok found) ↔
      ∃ found, misfitting path e = .ok found := by
    unfold entryFindings
    cases misfitting path e <;> simp [bind, Except.bind, pure, Except.pure]
  rw [hmisfit]
  unfold misfitting Entry.IsTried
  by_cases hskip : e.text = "" ∨ "python-format" ∉ e.flags
  · rw [if_pos (by simpa using hskip)]
    exact iff_of_true ⟨_, rfl⟩ fun ⟨_, htext, hflag, _⟩ => absurd hskip (by simp [htext, hflag])
  rw [if_neg (by simpa using hskip)]
  cases hprintf : Printf.check e.id e.text with
  | error m => exact iff_of_true ⟨_, rfl⟩ fun ⟨_, _, _, h⟩ => by cases h
  | ok u =>
    obtain ⟨htext, hflag⟩ := not_or.mp hskip
    rw [← Braces.check_ok_iff e.id e.text, imp_iff_right ⟨hused, htext, not_not.mp hflag, rfl⟩]
    cases Braces.check e.id e.text with
    | error f => exact iff_of_false (fun ⟨_, h⟩ => by cases h) fun ⟨_, h⟩ => by cases h
    | ok verdict =>
      refine iff_of_true ?_ ⟨verdict, rfl⟩
      cases verdict <;> exact ⟨_, rfl⟩

/-- **A catalog is checked to its end exactly if no entry that is tried has an unreadable
    field.** -/
theorem catalogFindings_ok_iff (path : String) (es : List Entry) :
    (∃ found, catalogFindings path es = .ok found) ↔ Sound es := by
  constructor
  · rintro ⟨found, h⟩ e he htried
    obtain ⟨parts, hparts, -⟩ := bind_ok_iff.mp h
    obtain ⟨part, -, hpart⟩ :=
      ok_of_mem_of_mapM_ok hparts (List.mem_filter.mpr ⟨he, by simp [htried.1]⟩)
    exact (entryFindings_ok_iff path htried.1).mp ⟨part, hpart⟩ htried
  · intro h
    obtain ⟨parts, hparts⟩ := mapM_ok_of_forall (es.filter (!·.obsolete)) (f := entryFindings path)
      (by
      intro e he
      obtain ⟨he, hused⟩ := List.mem_filter.mp he
      exact (entryFindings_ok_iff path (by simpa using hused)).mpr (h e he))
    exact ⟨_, bind_ok_iff.mpr ⟨parts, hparts, rfl⟩⟩

/-- Catalogs are checked to their end exactly if each can be opened or is found to be none, and no
    entry that is tried has an unreadable field. -/
theorem checkCatalogs_ok_iff (w : World) (files : List DataFile) :
    (∃ fs, checkCatalogs w files = .ok fs) ↔
      ∀ f ∈ files, ∃ r, open? w f.path = .ok r ∧ ∀ es, r = .ok es → Sound es := by
  constructor
  · rintro ⟨fs, h⟩ f hf
    obtain ⟨-, parts, -, hparts, -⟩ := checkCatalogs_parts h
    obtain ⟨part, -, r, hr, -, hpart⟩ := exists_of_mem_left hparts hf
    exact ⟨r, hr, fun es hes => (catalogFindings_ok_iff f.path es).mp ⟨part, hpart es hes⟩⟩
  · intro h
    obtain ⟨opened, hopened⟩ := mapM_ok_of_forall files
      (f := fun f => do return (f.path, ← open? w f.path)) (by
        intro f hf
        obtain ⟨r, hr, -⟩ := h f hf
        exact ⟨_, bind_ok_iff.mpr ⟨r, hr, rfl⟩⟩)
    refine exists_bind_iff.mpr ⟨opened, hopened, exists_bind_iff.mpr ?_⟩
    refine (mapM_ok_of_forall opened fun q hq => ?_).imp fun parts hparts => ⟨hparts, _, rfl⟩
    obtain ⟨f, hf, hq⟩ := mem_of_mapM_ok hopened hq
    obtain ⟨r, hr, hsound⟩ := h f hf
    obtain ⟨r', hr', hpair⟩ := bind_ok_iff.mp hq
    cases hpair
    cases hr.symm.trans hr'
    cases r with
    | error finding => exact ⟨_, rfl⟩
    | ok es => exact (catalogFindings_ok_iff f.path es).mpr (hsound es rfl)

/-- The findings of an entry in use are among those reported. -/
theorem entryFindings_of_checkCatalogs {w : World} {files : List DataFile} {fs : Findings}
    (h : checkCatalogs w files = .ok fs) {f : DataFile} (hf : f ∈ files) {es : List Entry}
    (hes : open? w f.path = .ok (.ok es)) {e : Entry} (he : e ∈ es) (hused : e.obsolete = false) :
    ∃ found, entryFindings f.path e = .ok found ∧
    ∀ x ∈ found, x.message ∈ Groups.get x.check fs := by
  obtain ⟨unreadable, parts, -, hparts, rfl⟩ := checkCatalogs_parts h
  obtain ⟨part, hpart, r, hr, -, hfound⟩ := exists_of_mem_left hparts hf
  cases hr.symm.trans hes
  obtain ⟨entries, hentries, hfound⟩ := bind_ok_iff.mp (hfound es rfl)
  cases hfound
  obtain ⟨found, hfound, hentry⟩ :=
    ok_of_mem_of_mapM_ok hentries (List.mem_filter.mpr ⟨he, by simp [hused]⟩)
  refine ⟨found, hentry, fun x hx => ?_⟩
  have hmem : x ∈ parts.flatten := List.mem_flatten.mpr
    ⟨_, hpart, List.mem_append_left _ (List.mem_flatten.mpr ⟨found, hfound, hx⟩)⟩
  rw [Findings.get_ofList]
  exact List.mem_map_of_mem (List.mem_filter.mpr ⟨List.mem_append_right _ hmem, beq_self_eq_true _⟩)

/-- **Only an unreadable field keeps translations from being checked.**  A verdict on a translation
    is reached exactly if no field of its message is unreadable; catalogs that can be opened are
    checked to their end exactly if this holds for every entry that is tried; and then every entry
    in use has been looked at. -/
theorem checkCatalogs_completes_iff (w : World) (files : List DataFile) :
    (∀ source translated, (∃ verdict, Braces.check source translated = .ok verdict) ↔
      ∀ name ∈ placeholders source, ¬ Unreadable name) ∧
    ((∃ fs, checkCatalogs w files = .ok fs) ↔
      ∀ f ∈ files, ∃ r, open? w f.path = .ok r ∧ ∀ es, r = .ok es → Sound es) ∧
    ∀ fs, checkCatalogs w files = .ok fs → ∀ f ∈ files, ∀ es, open? w f.path = .ok (.ok es) →
      ∀ e ∈ es, e.obsolete = false → ∃ found, entryFindings f.path e = .ok found ∧
        ∀ x ∈ found, x.message ∈ Groups.get x.check fs :=
  ⟨fun source translated => Braces.check_ok_iff source translated _, checkCatalogs_ok_iff w files,
    fun _ h _ hf _ hes _ he hused => entryFindings_of_checkCatalogs h hf hes he hused⟩

/-- A superscript two is a digit and no number: the arguments of such a message cannot be told. -/
theorem check_superscript :
    Unreadable "²" ∧ ¬ ∃ verdict, Braces.check "\x7b²\x7d" "x" = .ok verdict := by
  have hunreadable : Unreadable "²" := by
    refine ⟨by decide, ?_, fun hnumeral => absurd (hnumeral.1 '²' (by decide)) (by decide)⟩
    intro c hc
    obtain rfl : c = '²' := by simpa using hc
    exact Braces.digitRanges_contains.2
  refine ⟨hunreadable, fun h => ?_⟩
  exact (Braces.check_ok_iff _ _ _).mp h "²" (by decide) hunreadable

end AddonAudit.Catalog
