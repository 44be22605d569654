/-
  AddonAudit.Proofs.Setup.References — files that pin versions of several projects.

  A file of hooks names the address of each project in one line and its version in the next; a
  workflow names both in one line, with an at sign between them.  Setting the version of the hooks
  sets every such version, whosever it is: a reference to another project is left alone only if it
  pins no version, or the same one.
-/
import AddonAudit.Proofs.Log
import AddonAudit.Proofs.Pattern.Template
import AddonAudit.Proofs.Setup.Pin
import AddonAudit.Proofs.Workspace.View
import AddonAudit.Setup.Hooks

namespace AddonAudit.Setup

open List

/-! ## §1. References. -/

/-- A version of a project that a file refers to. -/
structure Reference where
  /-- The mark before the version. -/
  mark : Mark
  /-- How far the lines are indented. -/
  indent : Nat
  /-- The address or the name of the project. -/
  project : List Char
  /-- What stands where the version is expected, up to the end of the line. -/
  rev : List Char

/-- What stands before the project. -/
def Mark.intro : Mark → List Char
  | .revision => ['-', ' ', 'r', 'e', 'p', 'o', ':', ' ']
  | .handle => ['u', 's', 'e', 's', ':', ' ']

/-- What stands between the project and the mark: a hook has them in lines of their own. -/
def Mark.gap (indent : Nat) : Mark → List Char
  | .revision => '\n' :: List.replicate (indent + 2) ' '
  | .handle => []

/-- The lines of a reference. -/
def Reference.text (r : Reference) : List Char :=
  List.replicate r.indent ' ' ++ r.mark.intro ++ r.project ++ r.mark.gap r.indent ++ r.mark.lead ++
    r.rev ++ ['\n']

/-- A reference as it is read: nothing is pinned in the name of its project or behind its version,
    and what stands where the version is expected does so directly after the mark. -/
structure Reference.Proper (r : Reference) : Prop where
  project : ∀ m : Mark, m.Quiet r.project
  rev : ∀ m : Mark, m.Quiet r.rev
  sharp : Sharp r.rev

/-- The reference with another version in the place of the one that it pins. -/
def Reference.pinned (version : List Char) (r : Reference) : Reference :=
  { r with rev := repin version r.rev }

/-- A part of a file: a reference, or lines that pin nothing. -/
inductive Part where
  | reference (r : Reference)
  | other (text : List Char)

namespace Part

/-- The lines of a part. -/
def text : Part → List Char
  | reference r => r.text
  | other text => text ++ ['\n']

/-- Whether a part is as it is read. -/
def Proper : Part → Prop
  | reference r => r.Proper
  | other text => ∀ m : Mark, m.Quiet text

/-- The part with the version set that stands after a mark. -/
def pinBy (m : Mark) (version : List Char) : Part → Part
  | reference r => if r.mark = m then reference (r.pinned version) else reference r
  | other text => other text

/-- The part with its version set. -/
def pinned (version : List Char) : Part → Part
  | reference r => reference (r.pinned version)
  | other text => other text

/-- Each part has one mark. -/
theorem pinBy_pinBy (version : List Char) (p : Part) :
    (p.pinBy .revision version).pinBy .handle version = p.pinned version := by
  cases p with
  | other text => rfl
  | reference r =>
    obtain ⟨mark, indent, project, rev⟩ := r
    cases mark <;> rfl

end Part

/-- The text of a whole file. -/
def document (parts : List Part) : List Char := parts.flatMap Part.text

/-! ## §2. One pass. -/

namespace Mark

variable (m : Mark) (template : List Pattern.Piece)

theorem replaceFrom_blanks (n : Nat) (rest : List Char) :
    m.replaceFrom template 0 (replicate n ' ' ++ rest)
      = replicate n ' ' ++ m.replaceFrom template 0 rest := by
  have hfirst : ' ' ≠ m.first := by cases m <;> decide
  induction n with
  | zero => rfl
  | succ n ih =>
    rw [replicate_succ, cons_append,
      replaceFrom_of_pin?_eq_none m template (m.pin?_cons_of_ne hfirst _), ih, cons_append]

theorem replaceFrom_intro (k : Mark) (rest : List Char) :
    m.replaceFrom template 0 (k.intro ++ rest) = k.intro ++ m.replaceFrom template 0 rest := by
  cases m <;> cases k <;> rfl

theorem replaceFrom_gap (indent : Nat) (k : Mark) (rest : List Char) :
    m.replaceFrom template 0 (k.gap indent ++ rest) = k.gap indent ++
    m.replaceFrom template 0 rest := by
  cases k with
  | handle => rfl
  | revision =>
    have hfirst : '\n' ≠ m.first := by cases m <;> decide
    show m.replaceFrom template 0 ('\n' :: (replicate (indent + 2) ' ' ++ rest)) = _
    rw [replaceFrom_of_pin?_eq_none m template (m.pin?_cons_of_ne hfirst _), replaceFrom_blanks]
    rfl

/-- Each mark passes over the other one. -/
theorem replaceFrom_other_lead {k : Mark} (hk : k ≠ m) (rest : List Char) :
    m.replaceFrom template 0 (k.lead ++ rest) = k.lead ++ m.replaceFrom template 0 rest := by
  cases m <;> cases k
  · exact absurd rfl hk
  · rfl
  · rfl
  · exact absurd rfl hk

/-- The name of a project is copied: no pin reaches from it across what follows. -/
theorem replaceFrom_project {project : List Char} (h : m.Quiet project) (indent : Nat) (k : Mark)
    (rest : List Char) : m.replaceFrom template 0 (project ++ (k.gap indent ++ (k.lead ++ rest)))
      = project ++ (k.gap indent ++ m.replaceFrom template 0 (k.lead ++ rest)) := by
  rw [← replaceFrom_gap]
  cases k with
  | revision => exact replaceFrom_quiet m template (by cases m <;> decide) _ h
  | handle => exact replaceFrom_quiet m template (by cases m <;> decide) _ h

end Mark

/-- **One pass over a reference** sets its version if it stands after the mark of the pass. -/
theorem Reference.replaceFrom_text (m : Mark) (version : List Char) {r : Reference} (h : r.Proper)
    (rest : List Char) : m.replaceFrom (setTo version) 0 (r.text ++ rest)
      = ((Part.reference r).pinBy m version).text ++ m.replaceFrom (setTo version) 0 rest := by
  have hstart : m.replaceFrom (setTo version) 0 (r.text ++ rest)
      = replicate r.indent ' ' ++ (r.mark.intro ++ (r.project ++ (r.mark.gap r.indent ++
          m.replaceFrom (setTo version) 0 (r.mark.lead ++ (r.rev ++ '\n' :: rest))))) := by
    rw [← m.replaceFrom_project _ (h.project m), ← m.replaceFrom_intro, ← m.replaceFrom_blanks]
    simp [text]
  rw [hstart]
  by_cases hmark : r.mark = m
  · subst hmark
    have hlead := r.mark.replaceFrom_lead version h.sharp (h.rev r.mark) rest
    rw [append_assoc] at hlead
    rw [hlead]
    simp [Part.pinBy, Part.text, pinned, text]
  · rw [m.replaceFrom_other_lead _ hmark, m.replaceFrom_line _ (h.rev m)]
    simp [Part.pinBy, Part.text, text, hmark]

theorem Part.replaceFrom_text (m : Mark) (version : List Char) {p : Part} (h : p.Proper)
    (rest : List Char) : m.replaceFrom (setTo version) 0 (p.text ++ rest)
      = (p.pinBy m version).text ++ m.replaceFrom (setTo version) 0 rest := by
  cases p with
  | reference r => exact r.replaceFrom_text m version h rest
  | other text =>
    show m.replaceFrom (setTo version) 0 (text ++ ['\n'] ++ rest) = text ++ ['\n'] ++ _
    rw [append_assoc, singleton_append, m.replaceFrom_line _ (h m)]
    simp

/-- **One pass over a document** sets the versions after its mark. -/
theorem replaceFrom_document (m : Mark) (version : List Char) (parts : List Part)
    (h : ∀ p ∈ parts, p.Proper) :
    m.replaceFrom (setTo version) 0 (document parts) =
    document (parts.map (Part.pinBy m version)) := by
  induction parts with
  | nil =>
    show m.replaceFrom (setTo version) 0 [] = []
    rw [Mark.replaceFrom]
  | cons p parts ih =>
    have ih := ih fun q hq => h q (mem_cons_of_mem p hq)
    show m.replaceFrom (setTo version) 0 (p.text ++ document parts) = _ ++ document (parts.map _)
    rw [Part.replaceFrom_text m version (h p mem_cons_self), ih]

/-! ## §3. Whole documents. -/

/-- What is pinned in the place of a version is again a proper reference. -/
theorem Reference.Proper.pinned {r : Reference} (h : r.Proper) {version : List Char}
    (hversion : IsVersion version) : (r.pinned version).Proper := by
  refine ⟨h.project, ?_, ?_⟩
  · intro m
    show m.Quiet (repin version r.rev)
    unfold repin
    split
    · rename_i old hold
      have hfirst : m.first ∉ version := by
        cases m
        · exact hversion.not_mem (by decide)
        · exact hversion.not_mem (by decide)
      exact Mark.Quiet.append hfirst ((h.rev m).of_suffix (drop_suffix _ _))
    · exact h.rev m
  · show Sharp (repin version r.rev)
    unfold repin
    split
    · obtain ⟨-, hhead, -⟩ := versionAtFront?_eq_some hversion
      refine ⟨'v', ?_, by decide⟩
      rw [head?_append, hhead]
      rfl
    · exact h.sharp

theorem Part.Proper.pinBy {p : Part} (h : p.Proper) (m : Mark) {version : List Char}
    (hversion : IsVersion version) : (p.pinBy m version).Proper := by
  cases p with
  | other text => exact h
  | reference r =>
    show (if r.mark = m then Part.reference (r.pinned version) else Part.reference r).Proper
    split
    · exact Reference.Proper.pinned h hversion
    · exact h

variable {version : String} {parts : List Part}

/-- The two passes that set a version. -/
theorem pinVersion_eq (hslash : '\\' ∉ version.toList) (text : String) :
    pinVersion version text = .ok (String.ofList (Mark.replaceFrom .handle (setTo version.toList) 0
      (Mark.replaceFrom .revision (setTo version.toList) 0 text.toList))) := by
  unfold pinVersion
  dsimp only
  rw [Pattern.readTemplate_literal hslash]
  rfl

/-- **Setting a version sets it in every reference of a document.** -/
theorem pinVersion_document (hversion : IsVersion version.toList)
    (h : ∀ p ∈ parts, p.Proper) : pinVersion version (String.ofList (document parts))
      = .ok (String.ofList (document (parts.map (Part.pinned version.toList)))) := by
  have hfirst := replaceFrom_document .revision version.toList parts h
  have hsecond := replaceFrom_document .handle version.toList
    (parts.map (Part.pinBy .revision version.toList)) (by
    intro p hp
    obtain ⟨q, hq, rfl⟩ := mem_map.mp hp
    exact (h q hq).pinBy .revision hversion)
  rw [map_map] at hsecond
  have hboth : Part.pinBy .handle version.toList ∘ Part.pinBy .revision version.toList
      = Part.pinned version.toList := funext fun p => p.pinBy_pinBy version.toList
  rw [pinVersion_eq (hversion.not_mem (by decide)), String.toList_ofList, hfirst, hsecond, hboth]

/-! ## §4. Files. -/

/-- Setting a version brings in no characters but those of the version. -/
theorem mem_document_pinned {version : List Char} {c : Char}
    (h : c ∈ document (parts.map (Part.pinned version))) : c ∈ document parts ∨ c ∈ version := by
  unfold document at h ⊢
  obtain ⟨p', hp', hc⟩ := mem_flatMap.mp h
  obtain ⟨p, hp, rfl⟩ := mem_map.mp hp'
  have hpart : c ∈ p.text ∨ c ∈ version := by
    cases p with
    | other text => exact .inl hc
    | reference r =>
      have hrev : ∀ d ∈ repin version r.rev, d ∈ r.rev ∨ d ∈ version := by
        intro d hd
        unfold repin at hd
        split at hd
        · rcases mem_append.mp hd with hd | hd
          · exact .inr hd
          · exact .inl (mem_of_mem_drop hd)
        · exact .inl hd
      show c ∈ r.text ∨ _
      replace hc : c ∈ (r.pinned version).text := hc
      simp only [Reference.text, Reference.pinned, mem_append] at hc ⊢
      rcases hc with (hc | hc) | hc
      · exact .inl (.inl (.inl hc))
      · rcases hrev c hc with hc | hc
        · exact .inl (.inl (.inr hc))
        · exact .inr hc
      · exact .inl (.inr hc)
  exact hpart.imp_left fun hc => mem_flatMap.mpr ⟨p, hp, hc⟩

/-- What is told goes to the log. -/
theorem tell_relog (icon : Icon) (text : String) (w : World) :
    ∃ l, tell icon text w = .ok () (w.relog l) := ⟨_, rfl⟩

/-- What setting the version of a file comes to: the file is left alone, or its text is
    overwritten. -/
theorem pinFile_cases {w : World} {path text pinned : String} (hread : w.readText path = .ok text)
    (hpin : pinVersion version text = .ok pinned) :
    pinned = text ∧ pinFile path version false w = .ok false w ∨
      pinned ≠ text ∧ ∃ l, pinFile path version false w = .ok true
      ((w.put path (.file pinned.toUTF8)).relog l) := by
  obtain ⟨b, hfind⟩ := World.find_of_readText hread
  have hholds : w.holds path := by
    unfold World.holds
    rw [hfind]
    rfl
  -- the file is there, so that only the comparison is left
  have hstart : pinFile path version false w = (if pinned == text then pure false
      else do
        Session.writeText path pinned
        tell .edited ("Version updated to " ++ version ++ " in " ++ Path.name path)
        return true : Session Bool) w := by
    unfold pinFile
    show (if (!w.holds path) then pure false else _ : Session Bool) w = _
    rw [hholds, if_neg (by decide), Session.bind_of_ok _ (Session.readText_of_ok hread), hpin]
    rfl
  rw [hstart]
  by_cases hsame : pinned = text
  · refine .inl ⟨hsame, ?_⟩
    rw [if_pos (by simpa using hsame)]
    rfl
  · obtain ⟨l, htold⟩ := tell_relog .edited ("Version updated to " ++ version ++ " in " ++
      Path.name path) (w.put path (.file pinned.toUTF8))
    refine .inr ⟨hsame, l, ?_⟩
    rw [if_neg (by simpa using hsame), Session.bind_of_ok _
      (Session.writeText_of_find hfind pinned), Session.bind_of_ok _ htold]
    rfl

/-- **Setting the version of a file sets it in every reference of the file.** -/
theorem pinFile_document {w : World} {path : String}
    (hcwd : Path.isAbsolute w.cwd) (hversion : IsVersion version.toList)
    (hproper : ∀ p ∈ parts, p.Proper) (hread : w.readText path
      = .ok (String.ofList (document parts))) :
    ∃ changed w', pinFile path version false w = .ok changed w' ∧
      w'.readText path = .ok (String.ofList (document
      (parts.map (Part.pinned version.toList)))) := by
  obtain ⟨b, hfind⟩ := World.find_of_readText hread
  have hpin := pinVersion_document hversion hproper
  -- neither the text that was read nor a version has line ends other than line feeds
  have hclean : '\r' ∉ document (parts.map (Part.pinned version.toList)) := by
    intro hmem
    rcases mem_document_pinned hmem with hmem | hmem
    · have hunified := World.unified_of_readText hread
      rw [String.toList_ofList] at hunified
      exact hunified hmem
    · exact hversion.not_mem (by decide) hmem
  rcases pinFile_cases hread hpin with ⟨hsame, hend⟩ | ⟨-, l, hend⟩
  · exact ⟨_, _, hend, by rw [hread, hsame]⟩
  · refine ⟨_, _, hend, ?_⟩
    rw [World.readText_relog, World.readText_put hcwd hfind, String.toList_ofList,
      Text.unifyNewlines_of_not_mem hclean]

/-! ## §5. Whose versions are set. -/

/-- The name of the project that the hooks belong to. -/
def projectName : String := "soltein-net/solt-pre-commit"

/-- Whether a reference is to the project that the hooks belong to: by its address, or by a path
    that starts with its name. -/
def Reference.Ours (r : Reference) : Prop :=
  match r.mark with
  | .revision => r.project = sourceAddress.toList
  | .handle => projectName.toList <+: r.project

/-- A reference is left alone exactly if it pins no version, or the one that is set. -/
theorem Reference.pinned_text_iff (version : List Char) (r : Reference) :
    (r.pinned version).text = r.text ↔ ∀ old, versionAtFront? r.rev = some old → old = version := by
  have htext : (r.pinned version).text = r.text ↔ repin version r.rev = r.rev := by
    unfold Reference.text Reference.pinned
    simp
  rw [htext]
  unfold repin
  cases hold : versionAtFront? r.rev with
  | none => simp
  | some old =>
    obtain ⟨⟨tail, htail⟩, -, -⟩ := versionAtFront?_eq_some hold
    rw [htail]
    simp [eq_comm]

/-- **Setting the version of the hooks sets every version.**  Each reference of a file gets the new
    version in the place of the one that it pins.  So the references to other projects are left
    alone exactly if each of them pins no version, or already the new one. -/
theorem pinFile_references {w : World} {path version : String} {parts : List Part}
    (hcwd : Path.isAbsolute w.cwd = true) (hversion : IsVersion version.toList)
    (hproper : ∀ p ∈ parts, p.Proper)
    (hread : w.readText path = .ok (String.ofList (document parts))) :
    (∃ changed w', pinFile path version false w = .ok changed w' ∧
      w'.readText path = .ok (String.ofList (document (parts.map (Part.pinned version.toList))))) ∧
    ((∀ r, .reference r ∈ parts → ¬ r.Ours → (r.pinned version.toList).text = r.text) ↔
      ∀ r, .reference r ∈ parts → ¬ r.Ours →
        ∀ old, versionAtFront? r.rev = some old → old = version.toList) := by
  refine ⟨pinFile_document hcwd hversion hproper hread, ?_⟩
  refine forall_congr' fun r => imp_congr_right fun _ => imp_congr_right fun _ => ?_
  exact r.pinned_text_iff version.toList

/-- A reference to the project of the hooks. -/
def ownHook : Reference where
  mark := .revision
  indent := 2
  project := sourceAddress.toList
  rev := "v1.0.1".toList

/-- A reference to another project. -/
def linterHook : Reference where
  mark := .revision
  indent := 2
  project := "https://github.com/astral-sh/ruff-pre-commit".toList
  rev := "v0.15.10".toList

/-- A file of hooks that come from two projects. -/
def twoHooks : List Part := [.other "repos:".toList, .reference ownHook, .reference linterHook]

theorem proper_twoHooks : ∀ p ∈ twoHooks, p.Proper := by
  have hother : (Part.other "repos:".toList).Proper := fun m => by cases m <;> decide +kernel
  have hown : ownHook.Proper := {
    project := fun m => by cases m <;> decide +kernel
    rev := fun m => by cases m <;> decide +kernel
    sharp := ⟨'v', rfl, rfl⟩ }
  have hlinter : linterHook.Proper := {
    project := fun m => by cases m <;> decide +kernel
    rev := fun m => by cases m <;> decide +kernel
    sharp := ⟨'v', rfl, rfl⟩ }
  intro p hp
  simp only [twoHooks, mem_cons, not_mem_nil, or_false] at hp
  rcases hp with rfl | rfl | rfl
  · exact hother
  · exact hown
  · exact hlinter

/-- A repository with this file. -/
def twoHooksWorld : World where
  root := .folder [(hooksFile, .file (String.ofList (document twoHooks)).toUTF8)]

theorem readText_twoHooksWorld :
    twoHooksWorld.readText hooksFile = .ok (String.ofList (document twoHooks)) := by
  have hclean : '\r' ∉ document twoHooks := by decide +kernel
  have hread := World.readText_of_find (w := twoHooksWorld) (p := hooksFile)
    (s := String.ofList (document twoHooks)) rfl
  rwa [String.toList_ofList, Text.unifyNewlines_of_not_mem hclean] at hread

theorem isVersion_next : IsVersion "v1.0.2".toList := by decide +kernel

/-- In this file the other project is not left alone. -/
theorem pinFile_references_twoHooks :
    (∃ changed w', pinFile hooksFile "v1.0.2" false twoHooksWorld = .ok changed w' ∧
      w'.readText hooksFile
        = .ok (String.ofList (document (twoHooks.map (Part.pinned "v1.0.2".toList))))) ∧
    ¬ ∀ r, .reference r ∈ twoHooks → ¬ r.Ours → (r.pinned "v1.0.2".toList).text = r.text := by
  obtain ⟨hend, hiff⟩ := pinFile_references rfl isVersion_next proper_twoHooks
    readText_twoHooksWorld
  refine ⟨hend, fun hleft => ?_⟩
  have hother : ¬ linterHook.Ours := by
    show ¬ linterHook.project = sourceAddress.toList
    decide +kernel
  have hversion : versionAtFront? linterHook.rev = some "v0.15.10".toList := by decide +kernel
  have hsame := hiff.mp hleft linterHook (by simp [twoHooks]) hother _ hversion
  exact absurd hsame (by decide +kernel)

/-- **Setting the version of the hooks changes the version of another project.** -/
theorem pinFile_changes_other_project :
    twoHooksWorld.readText hooksFile = .ok
      ("repos:\n  - repo: https://github.com/soltein-net/solt-pre-commit\n" ++
        "    rev: v1.0.1\n  - repo: https://github.com/astral-sh/ruff-pre-commit\n    rev: v0.15.10\n") ∧
    ∃ changed w', pinFile hooksFile "v1.0.2" false twoHooksWorld = .ok changed w' ∧
      w'.readText hooksFile = .ok
        ("repos:\n  - repo: https://github.com/soltein-net/solt-pre-commit\n" ++
          "    rev: v1.0.2\n  - repo: https://github.com/astral-sh/ruff-pre-commit\n    rev: v1.0.2\n") := by
  obtain ⟨changed, w', hend, hread⟩ :=
    pinFile_document rfl isVersion_next proper_twoHooks readText_twoHooksWorld
  refine ⟨?_, changed, w', hend, ?_⟩
  · rw [readText_twoHooksWorld]
    exact congrArg Except.ok (by decide +kernel)
  · rw [hread]
    exact congrArg Except.ok (by decide +kernel)

end AddonAudit.Setup
