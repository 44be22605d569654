/-
  AddonAudit.Proofs.Setup.Copying — the copy that a repository gets of a file.

  A repository gets copies of several files, and each step keeps the places with a last name that it
  does not use.  So a template with a name of its own is still there when its turn comes, and its
  copy is still there when all others have been made.  Then the copy is edited.
-/
import AddonAudit.Proofs.Setup.Settings
import AddonAudit.Proofs.Workspace.Keeping

namespace AddonAudit.Setup

open List AddonAudit.Path
open Session (Moves bind_eq_ok_iff)

variable {w w' : World} {n f folder target : String} {r : Request} {file : String × String}
    {b : ByteArray}

/-! ## §1. Names of places. -/

/-- The places with a last name. -/
def Named (n : String) (q : List String) : Prop := q.getLast? = some n

/-- Whether a path goes down along names, to a last one. -/
def Relative (f : String) : Prop := isAbsolute f = false ∧ ".." ∉ components f ∧ components f ≠ []

instance : DecidablePred Relative := fun _ => inferInstanceAs (Decidable (_ ∧ _ ∧ _))

theorem Relative.last (h : Relative f) : ∃ ns, components f = ns ++ [name f] := by
  obtain ⟨ns, n, hns⟩ := (eq_nil_or_concat' (components f)).resolve_left h.2.2
  refine ⟨ns, ?_⟩
  unfold name
  rw [hns, getLastD_concat]

theorem Relative.isName (h : Relative f) : IsName (name f) ∧ name f ≠ ".." := by
  obtain ⟨ns, hns⟩ := h.last
  have hmem : name f ∈ components f := by
    rw [hns]
    simp
  exact ⟨isName_of_mem_components hmem, fun hup => h.2.1 (hup ▸ hmem)⟩

theorem Relative.settle_child (h : Relative f) (folder : String) :
    settle (components (child folder f)) = settle (components folder) ++ components f := by
  unfold child
  rw [h.1, if_neg Bool.false_ne_true, components_tidy, components_join h.1, settle_append h.2.1]

/-- A path below a folder has its own last name there. -/
theorem Relative.named_child (h : Relative f) (folder : String) :
    Named n (settle (components (child folder f))) ↔ name f = n := by
  obtain ⟨ns, hns⟩ := h.last
  rw [h.settle_child, hns, ← append_assoc, Named, getLast?_concat, Option.some.injEq]

theorem Relative.components_join_last (h : Relative f) (folder : String) :
    ∃ ns, components (join folder f) = ns ++ [name f] := by
  obtain ⟨ns, hns⟩ := h.last
  exact ⟨components folder ++ ns, by rw [components_join h.1, hns, append_assoc]⟩

theorem Relative.basename_child (h : Relative f) (folder : String) :
    basename (child folder f) = name f := by
  obtain ⟨ns, hns⟩ := h.components_join_last folder
  unfold child
  rw [h.1, if_neg Bool.false_ne_true]
  exact basename_tidy hns

theorem Relative.pieces_child (h : Relative f) (folder : String) :
    ∃ ns, pieces (child folder f) = ns ++ [name f] := by
  obtain ⟨ns, hns⟩ := h.components_join_last folder
  unfold child
  rw [h.1, if_neg Bool.false_ne_true]
  exact pieces_tidy hns

/-- A copy that goes into a folder has the last name of its source there. -/
theorem Relative.named_inside (h : Relative f) (folder target : String) :
    Named n (settle (components (join target (basename (child folder f))))) ↔ name f = n := by
  obtain ⟨hname, hup⟩ := h.isName
  rw [h.basename_child, components_join hname.relative, components_of_isName hname,
    settle_append (by simpa using hup.symm), Named, getLast?_concat, Option.some.injEq]

/-! ## §2. Steps that keep a name. -/

section Steps

variable {P : List String → Prop}

theorem keeps_tell (icon : Icon) (text : String) : Moves (World.Keeps P) (tell icon text) :=
  Session.keeps_printLine _

theorem keeps_printTitle (title : String) (details : List String) :
    Moves (World.Keeps P) (printTitle title details) := by
  unfold printTitle
  refine .bind (Session.keeps_printLine _) fun _ => .bind (Session.keeps_printLine _) fun _ => ?_
  refine .bind (Session.keeps_printLine _) fun _ => .ite (.bind ?_ fun _ =>
    Session.keeps_printLine _) (.pure _)
  exact .forM fun l _ => Session.keeps_printLine l

/-- Running the manager keeps every place. -/
theorem keeps_installHooks (target : String) (dryRun : Bool) :
    Moves (World.Keeps P) (installHooks target dryRun) := by
  unfold installHooks manage
  refine .ite (.bind (keeps_tell _ _) fun _ => .pure _) (.bind (Session.keeps_run _ _).attempt
    fun result => ?_)
  split
  · refine .ite (.bind (keeps_tell _ _) fun _ => .pure _) (.bind (keeps_tell _ _) fun _ => .pure _)
  · exact .bind (keeps_tell _ _) fun _ => .pure _
  · exact .throw _

/-- Old files are removed from their own places. -/
theorem keeps_removeOldFiles (htarget : isAbsolute target) (hn : n ∉ oldFiles) (dryRun : Bool) :
    Moves (World.Keeps (Named n)) (removeOldFiles target dryRun) := by
  have hold : ∀ f ∈ oldFiles, Relative f ∧ name f = f := by decide
  refine .forM fun f hf => .get_bind fun w => .ite (.ite (keeps_tell _ _) (.bind ?_ fun _ =>
    keeps_tell _ _)) (.pure _)
  obtain ⟨hrelative, hname⟩ := hold f hf
  refine Session.keeps_removeFile (isAbsolute_child htarget) ?_
  rw [hrelative.named_child, hname]
  rintro rfl
  exact hn hf

/-- **A copy keeps every place but its own**, whether it goes into a folder or not. -/
theorem keeps_copy (htarget : isAbsolute target)
    (hP : ¬ P (settle (components (child target file.2))))
    (hinside : ¬ P (settle (components
      (join (child target file.2) (basename (child r.templates file.1)))))) :
    Moves (World.Keeps P) (r.copy target file) := by
  have habsolute := isAbsolute_child (b := file.2) htarget
  have hcopy := Session.keeps_copyFile _ habsolute hP hinside
  refine .get_bind fun w => .ite (.get_bind fun w => ?_) (.bind (keeps_tell _ _) fun _ => .pure _)
  refine .ite (.bind (keeps_tell _ _) fun _ => .pure _)
    (.ite (.bind (keeps_tell _ _) fun _ => .pure _) ?_)
  refine .ite (.bind (keeps_tell _ _) fun _ => .pure _) (.bind (.attempt (.bind ?_ fun _ => hcopy))
    fun result => ?_)
  · exact Session.keeps_ensureFolder (isAbsolute_parent habsolute)
  · split
    · exact .ite (.bind (keeps_tell _ _) fun _ => .pure _) (.bind (keeps_tell _ _) fun _ => .pure _)
    · exact .bind (keeps_tell _ _) fun _ => .pure _

/-- A copy keeps the places with another last name than its own and that of its source. -/
theorem keeps_copy_of_names (htarget : isAbsolute target) (hsource : Relative file.1 ∧
    name file.1 ≠ n) (hfile :
    Relative file.2 ∧ name file.2 ≠ n) : Moves (World.Keeps (Named n)) (r.copy target file) := by
  refine keeps_copy htarget ?_ ?_
  · rw [hfile.1.named_child]
    exact hfile.2
  · rw [hsource.1.named_inside]
    exact hsource.2

end Steps

/-! ## §3. A file that was copied. -/

/-- What copying a file that ends well did. -/
theorem of_sessionCopyFile {source target : String}
    (h : Session.copyFile source target w = .ok () w') : ∃ bytes, w.readBytes source = .ok bytes ∧
    Session.writeBytes
      (if w.isFolder target then join target (basename source) else target) bytes w
        = .ok () w' := by
  unfold Session.copyFile at h
  obtain ⟨_, _, hget, h⟩ := bind_eq_ok_iff.mp h
  cases hget
  dsimp only at h
  generalize (if w.isFolder target then join target (basename source) else target) = place at h ⊢
  by_cases hsame : (w.holds place && w.resolve source == w.resolve place)
  · rw [if_pos hsame] at h
    cases h
  · rw [if_neg hsame] at h
    obtain ⟨bytes, w₁, hread, hwrite⟩ := bind_eq_ok_iff.mp h
    obtain ⟨rfl, hbytes⟩ : w₁ = w ∧ w.readBytes source = .ok bytes := by
      change Session.ofExcept (w.readBytes source) w = _ at hread
      cases hw : w.readBytes source with
      | error f =>
        rw [hw] at hread
        cases hread
      | ok bytes' =>
        rw [hw] at hread
        cases hread
        exact ⟨rfl, rfl⟩
    exact ⟨bytes, hbytes, hwrite⟩

/-- What a copy that is there did: it made the folders above it, and copied the template. -/
theorem of_copy_true (hrun : r.dryRun = false) (h : r.copy target file w = .ok true w') : ∃ w₁ w₂ l,
    Session.ensureFolder (parent (child target file.2)) w = .ok () w₁ ∧
      Session.copyFile (child r.templates file.1) (child target file.2) w₁ = .ok () w₂ ∧
      w' = w₂.relog l := by
  unfold Request.copy at h
  obtain ⟨_, _, hget, h⟩ := bind_eq_ok_iff.mp h
  cases hget
  split at h
  · unfold copyFile at h
    rw [hrun] at h
    obtain ⟨_, _, hget, h⟩ := bind_eq_ok_iff.mp h
    cases hget
    dsimp only at h
    split at h
    · cases h
    split at h
    · cases h
    rw [if_neg Bool.false_ne_true] at h
    -- all other ways through a copy say that nothing was copied
    obtain ⟨result, w₂, hattempt, h⟩ := bind_eq_ok_iff.mp h
    rcases Session.attempt_eq_ok hattempt with ⟨_, rfl, hcopy⟩ | ⟨f, rfl, -⟩
    · obtain ⟨_, w₁, hfolder, hcopy⟩ := bind_eq_ok_iff.mp hcopy
      refine ⟨w₁, w₂, w'.log, hfolder, hcopy, ?_⟩
      dsimp only at h
      split at h
      · cases h
        rfl
      · cases h
        rfl
    · cases h
  · cases h

/-- **What a copy leaves in its place**: the template, or a folder that the template went into. -/
theorem find_of_copy (h : r.copy target file w = .ok true w') (hcwd : isAbsolute w.cwd)
    (htarget : isAbsolute target) (hrun : r.dryRun = false) (hfile : Relative file.2)
    (hb : w.find (child r.templates file.1) = .ok (.file b)) :
    w'.find (child target file.2) = .ok (.file b) ∨
      ∃ ms, w'.find (child target file.2) = .ok (.folder ms) := by
  obtain ⟨w₁, w₂, l, hfolder, hcopy, rfl⟩ := of_copy_true hrun h
  have habsolute := isAbsolute_child (b := file.2) htarget
  -- the template is still there when the folders have been made
  have hkeeps : w.Keeps (fun _ => True) w₁ :=
    (Session.keeps_ensureFolder (isAbsolute_parent habsolute)).of_ok hfolder
  have hcwd₁ := hkeeps.isAbsolute hcwd
  have hb₁ := hkeeps.find_file hcwd hb trivial
  obtain ⟨bytes, hbytes, hwrite⟩ := of_sessionCopyFile hcopy
  unfold World.readBytes at hbytes
  rw [hb₁] at hbytes
  cases hbytes
  show w₂.find _ = _ ∨ ∃ ms, w₂.find _ = _
  split at hwrite
  · rename_i hinto
    obtain ⟨ms, hms⟩ : ∃ ms, w₁.find (child target file.2) = .ok (.folder ms) := by
      unfold World.isFolder at hinto
      split at hinto
      · rename_i x hx
        cases x with
        | file b => cases hinto
        | folder ms => exact ⟨ms, hx⟩
      · cases hinto
    have hkeeps₂ : w₁.Keeps (fun _ => False) w₂ :=
      (Session.keeps_writeBytes (isAbsolute_join habsolute) id _).of_ok hwrite
    exact .inr (hkeeps₂.find_folder hcwd₁ hms)
  · rcases Session.writeBytes_cases habsolute b w₁ with ⟨hwritable, hok⟩ | ⟨f, hno⟩
    · obtain ⟨-, hput⟩ := EStateM.Result.ok.inj (hwrite.symm.trans hok)
      obtain ⟨ms, hms⟩ := hfile.pieces_child target
      rw [hput]
      exact .inl (hwritable.find_put hcwd₁ habsolute hms hfile.isName.1 b)
    · rw [hno] at hwrite
      cases hwrite

/-! ## §4. A file that was edited. -/

section Edits

variable {p text : String} {xs : List (String × String)}

theorem readText_of_file (h : w.find p = .ok (.file b)) :
    w.readText p = (World.decode b).map fun cs => String.ofList (Text.unifyNewlines cs) := by
  unfold World.readText World.readBytes
  rw [h]
  show (World.decode b >>= fun cs => pure (String.ofList (Text.unifyNewlines cs))) = _
  cases World.decode b <;> rfl

/-- A folder is not edited. -/
theorem editFile_of_folder {ms : List (String × Entry)} (h : w.find p = .ok (.folder ms)) :
    editFile p xs false w = .error (.isFolder p) w := by
  have hread : Session.readText p w = .error (.isFolder p) w := by
    show Session.ofExcept (w.readText p) w = _
    unfold World.readText World.readBytes
    rw [h]
    rfl
  unfold editFile
  rw [Session.get_bind, World.holds_of_find h, if_neg (by decide)]
  exact Session.bind_of_error _ hread

/-- **An edited file holds its text with the parts replaced.** -/
theorem find_of_editFile {found : Bool} (hcwd : isAbsolute w.cwd) (hb : w.find p = .ok (.file b))
    (htext : w.readText p = .ok text) (hclean : '\r' ∉ (replaceParts text xs).1.toList)
    (h : editFile p xs false w = .ok found w') :
    w'.cwd = w.cwd ∧ ∃ b', w'.find p = .ok (.file b') ∧
    w'.readText p = .ok (replaceParts text xs).1 := by
  unfold editFile at h
  rw [Session.get_bind, World.holds_of_find hb, if_neg (by decide),
    Session.bind_of_ok _ (Session.readText_of_ok htext)] at h
  change (if ((replaceParts text xs).2 && !false) then _ else _ : Session Bool) w = _ at h
  -- without an occurrence nothing is written
  cases hfound : (replaceParts text xs).2 with
  | false =>
    rw [hfound] at h
    cases h
    exact ⟨rfl, b, hb, by rw [htext, replaceParts_of_not_found hfound]⟩
  | true =>
    rw [hfound, if_pos (by decide)] at h
    obtain ⟨_, w₁, hwrite, h⟩ := bind_eq_ok_iff.mp h
    obtain ⟨-, hput⟩ := EStateM.Result.ok.inj ((Session.writeText_of_find hb _).symm.trans hwrite)
    have hthere : w₁.find p = .ok (.file (replaceParts text xs).1.toUTF8) := by
      rw [← hput]
      exact World.find_put hcwd hb _
    have hcwd₁ : w₁.cwd = w.cwd := by
      rw [← hput]
      exact World.cwd_put _ _ _
    cases h
    refine ⟨hcwd₁, _, hthere, ?_⟩
    show w₁.readText p = _
    rw [World.readText_of_find hthere, Text.unifyNewlines_of_not_mem hclean, String.ofList_toList]

end Edits

end AddonAudit.Setup
