/-
  AddonAudit.Proofs.Badge.Section — what an update of the badges in a file leaves alone.

  The first start mark and the first end mark are looked for separately.  As long as no end mark
  stands before the first start mark, the update keeps what is outside the marks, and a second one
  changes nothing. Otherwise what stands between the two is written twice, and once more at every
  update.
-/
import AddonAudit.Badge.Command
import AddonAudit.Proofs.Log
import AddonAudit.Proofs.Text.Replacing
import AddonAudit.Proofs.Workspace.Places

namespace AddonAudit.Badge

open List

open Text (afterFront? afterFront?_eq_some_iff cutFirst? cutFirst?_eq_some)

/-! ## §1. First occurrences. -/

section Occurrences

variable {part text a b rest : List Char}

theorem afterFront?_isSome_iff {front text : List Char} :
    (afterFront? front text).isSome ↔ front <+: text := by
  rw [Option.isSome_iff_exists]
  exact exists_congr fun rest => afterFront?_eq_some_iff.trans eq_comm

theorem not_prefix_of_afterFront? (h : afterFront? part text = none) : ¬ part <+: text := by
  rw [← afterFront?_isSome_iff, h]
  exact Bool.false_ne_true

/-- Only a text without the part is not cut. -/
theorem cutFirst?_eq_none_iff (hpart : part ≠ []) :
    cutFirst? part text = none ↔ ¬ part <:+: text := by
  constructor
  · intro h
    induction text with
    | nil => simpa using hpart
    | cons c text ih =>
      unfold cutFirst? at h
      split at h
      · cases h
      · rename_i hfront
        rw [infix_cons_iff, not_or]
        exact ⟨not_prefix_of_afterFront? hfront, ih (Option.map_eq_none_iff.mp h)⟩
  · intro h
    cases hcut : cutFirst? part text with
    | none => rfl
    | some cut =>
      obtain ⟨a, rest⟩ := cut
      exact absurd ⟨a, rest, by rw [cutFirst?_eq_some hcut, append_assoc]⟩ h

/-- **A cut is made at the first occurrence**: none ends before the one that is cut. -/
theorem not_infix_of_cutFirst? (hpart : part ≠ []) (h : cutFirst? part text = some (a, rest)) :
    ¬ part <:+: a ++ part.dropLast := by
  induction text generalizing a with
  | nil =>
    unfold cutFirst? at h
    rw [if_neg (by simpa using hpart)] at h
    cases h
  | cons c text ih =>
    have htext := cutFirst?_eq_some h
    unfold cutFirst? at h
    split at h
    · cases h
      intro hoccurs
      have hlength := hoccurs.length_le
      have hpos := length_pos_iff.mpr hpart
      rw [nil_append, length_dropLast] at hlength
      omega
    · rename_i hfront
      obtain ⟨⟨a', rest'⟩, hcut, heq⟩ := Option.map_eq_some_iff.mp h
      cases heq
      rw [cons_append, infix_cons_iff, not_or]
      refine ⟨fun hhead => not_prefix_of_afterFront? hfront ?_, ih hcut⟩
      -- what stands before the end of the occurrence is the start of the text
      have hstart : c :: (a' ++ part.dropLast) <+: c :: text := by
        rw [htext, ← cons_append, prefix_append_right_inj]
        exact ( dropLast_prefix part).trans (prefix_append part rest)
      exact hhead.trans hstart

theorem cutFirst?_append (hpart : part ≠ []) (h : ¬ part <:+: a ++ part.dropLast)
    (rest : List Char) : cutFirst? part (a ++ (part ++ rest)) = some (a, rest) := by
  induction a with
  | nil =>
    obtain ⟨p, part, rfl⟩ := exists_cons_of_ne_nil hpart
    rw [nil_append, cons_append, cutFirst?, afterFront?_eq_some_iff.mpr (cons_append ..).symm]
  | cons c a ih =>
    rw [cons_append, infix_cons_iff, not_or] at h
    have hfront : afterFront? part (c :: (a ++ (part ++ rest))) = none := by
      rw [← Option.not_isSome_iff_eq_none, afterFront?_isSome_iff]
      intro hprefix
      have hstart : c :: (a ++ part.dropLast) <+: c :: (a ++ (part ++ rest)) := by
        rw [← cons_append, ← cons_append, prefix_append_right_inj]
        exact ( dropLast_prefix part).trans (prefix_append part rest)
      refine h.1 (prefix_of_prefix_length_le hprefix hstart ?_)
      rw [length_cons, length_append, length_dropLast]
      omega
    rw [cons_append, cutFirst?, hfront, ih h.2]
    rfl

theorem cutFirst?_append_of_eq_some (hpart : part ≠ []) (h : cutFirst? part a = some (b, rest))
    (tail : List Char) : cutFirst? part (a ++ tail) = some (b, rest ++ tail) := by
  rw [cutFirst?_eq_some h, append_assoc, append_assoc]
  exact cutFirst?_append hpart (not_infix_of_cutFirst? hpart h) _

/-- An occurrence does not reach across a character that it does not hold after its start. -/
theorem infix_append_cons {c : Char} (hc : c ∉ part.tail) (h : part <:+: a ++ c :: b) :
    part <:+: a ∨ part <:+: c :: b := by
  rcases infix_append_iff.mp h with h | h | ⟨l, r, rfl, hl, hr⟩
  · exact .inl h
  · exact .inr h
  · cases l with
    | nil => exact .inr hr.isInfix
    | cons d l =>
      cases r with
      | nil => exact .inl (by simpa using hl.isInfix)
      | cons e r =>
        rw [cons_prefix_cons] at hr
        exact absurd (by simp [hr.1]) hc

end Occurrences

/-! ## §2. The marks. -/

/-- What stands before the first start mark and after the first end mark. -/
def outside? (text : String) : Option (List Char × List Char) := do
  let (before, _) ← cutFirst? startMark.toList text.toList
  let (_, after) ← cutFirst? endMark.toList text.toList
  return (before, after)

/-- No end mark stands before the first start mark. -/
def InOrder (text : String) : Prop :=
  ∃ before rest, cutFirst? startMark.toList text.toList = some (before, rest) ∧
    ¬ endMark.toList <:+: before

/-- A text with its badges replaced. -/
def filled (before : List Char) (badges : String) (after : List Char) : List Char :=
  before ++ (startMark.toList ++ ('\n' :: (badges.toList ++ '\n' :: (endMark.toList ++ after))))

section Marks

variable {text badges : String} {before after : List Char}

theorem outside?_eq_some (h : outside? text = some (before, after)) :
    ∃ rest x, cutFirst? startMark.toList text.toList = some (before, rest) ∧
      cutFirst? endMark.toList text.toList = some (x, after) := by
  obtain ⟨⟨before, rest⟩, hstart, h⟩ := Option.bind_eq_some_iff.mp h
  obtain ⟨⟨x, after⟩, hend, h⟩ := Option.bind_eq_some_iff.mp h
  cases h
  exact ⟨rest, x, hstart, hend⟩

theorem replaced?_eq_some (h : outside? text = some (before, after)) (badges : String) :
    replaced? text badges = some (String.ofList (filled before badges after)) := by
  obtain ⟨rest, x, hstart, hend⟩ := outside?_eq_some h
  unfold replaced? filled
  rw [hstart, hend]
  simp [← String.toList_inj]

/-- No end mark is found in the badges or across their ends. -/
theorem not_infix_filled (hbefore : ¬ endMark.toList <:+: before)
    (hbadges : ¬ endMark.toList <:+: badges.toList) :
    ¬ endMark.toList <:+: before ++ (startMark.toList ++ '\n' :: (badges.toList ++ ['\n'])) ++
      endMark.toList.dropLast := by
  have hbreak {x : List Char} (h : endMark.toList <:+: '\n' :: x) : endMark.toList <:+: x := by
    have hmark : endMark.toList = '<' :: endMark.toList.tail := by decide
    rcases infix_cons_iff.mp h with h | h
    · rw [hmark] at h
      exact absurd (cons_prefix_cons.mp h).1 (by decide)
    · exact h
  simp only [append_assoc, cons_append]
  intro h
  have hfront : endMark.toList <:+: before ∨ endMark.toList <:+: startMark.toList ++
      '\n' :: (badges.toList ++ '\n' :: endMark.toList.dropLast) := by
    have hmark : startMark.toList = '<' :: startMark.toList.tail := by decide
    rw [hmark, cons_append] at h ⊢
    exact infix_append_cons (by decide) h
  rcases hfront with h | h
  · exact hbefore h
  rcases infix_append_cons (by decide : '\n' ∉ endMark.toList.tail) h with h | h
  · exact absurd h (by decide +kernel)
  rcases infix_append_cons (by decide) (hbreak h) with h | h
  · exact hbadges h
  · exact absurd (hbreak h) (by decide +kernel)

/-- **What is outside the marks after an update**: what was there before, unless the marks are out
    of order; then there is more. -/
theorem outside?_filled (hmarks : outside? text = some (before, after))
    (hbadges : ¬ endMark.toList <:+: badges.toList) :
    ∃ after', outside? (String.ofList (filled before badges after)) = some (before, after') ∧
      (after' = after ↔ InOrder text) := by
  obtain ⟨rest, x, hstart, hend⟩ := outside?_eq_some hmarks
  have horder : InOrder text ↔ ¬ endMark.toList <:+: before := by
    refine ⟨fun ⟨b, r, hcut, hno⟩ => ?_, fun hno => ⟨before, rest, hstart, hno⟩⟩
    cases hstart.symm.trans hcut
    exact hno
  have houtside {y after'}
      (h : cutFirst? endMark.toList (filled before badges after) = some (y, after')) :
      outside? (String.ofList (filled before badges after)) = some (before, after') := by
    have hnew := cutFirst?_append (by decide) (not_infix_of_cutFirst? (by decide) hstart)
      ('\n' :: (badges.toList ++ '\n' :: (endMark.toList ++ after)))
    unfold outside?
    rw [String.toList_ofList, h, filled, hnew]
    rfl
  rw [horder]
  by_cases hearly : endMark.toList <:+: before
  · -- the end mark in front is found in both texts
    obtain ⟨⟨y, z⟩, hcut⟩ := Option.ne_none_iff_exists'.mp
      fun hnone => (cutFirst?_eq_none_iff (by decide)).mp hnone hearly
    have hold := cutFirst?_append_of_eq_some (by decide) hcut (startMark.toList ++ rest)
    rw [← cutFirst?_eq_some hstart, hend] at hold
    cases hold
    refine ⟨_, houtside (cutFirst?_append_of_eq_some (by decide) hcut _),
      iff_of_false (fun h => ?_) (not_not_intro hearly)⟩
    have hlength := congrArg length h
    simp only [length_append, length_cons] at hlength
    omega
  · -- the first end mark is the one behind the badges
    have hcut := cutFirst?_append (by decide) (not_infix_filled hearly hbadges) after
    exact ⟨after, houtside (by simpa [filled] using hcut), iff_of_true rfl hearly⟩

end Marks

/-! ## §3. Files. -/

section Files

variable {w : World} {path text badges : String}

theorem updateFile_of_replaced {new : String} (hread : w.readText (Path.tidy path) = .ok text)
    (hnew : replaced? text badges = some new) :
    ∃ l, updateFile path badges w
      = .ok true ((w.put (Path.tidy path) (.file new.toUTF8)).relog l) := by
  obtain ⟨b, hfind⟩ := World.find_of_readText hread
  have hprint (s : String) (v : World) : ∃ l, Session.printLine s v = .ok () (v.relog l) := ⟨_, rfl⟩
  obtain ⟨l, hprint⟩ := hprint ("✅ Updated badges in " ++ Path.tidy path)
    (w.put (Path.tidy path) (.file new.toUTF8))
  refine ⟨l, ?_⟩
  unfold updateFile
  rw [Session.get_bind, World.holds_of_find hfind, if_neg (by decide),
    Session.bind_of_ok _ (Session.readText_of_ok hread), hnew]
  dsimp only
  rw [Session.bind_of_ok _ (Session.writeText_of_find hfind new), Session.bind_of_ok _ hprint]
  rfl

/-- **An update touches only the badges and can be repeated exactly if the marks are in order.** -/
theorem updateFile_again (path badges : String) (hread : w.readText (Path.tidy path) = .ok text)
    (hstart : Text.contains text startMark) (hend : Text.contains text endMark)
    (hbadges : ¬ Text.contains badges endMark) :
    ∃ new, (∃ l, updateFile path badges w
        = .ok true ((w.put (Path.tidy path) (.file new.toUTF8)).relog l)) ∧
      (outside? new = outside? text ↔ InOrder text) ∧
      (replaced? new badges = some new ↔ InOrder text) := by
  obtain ⟨⟨before, rest⟩, hbefore⟩ := Option.isSome_iff_exists.mp hstart
  obtain ⟨⟨x, after⟩, hafter⟩ := Option.isSome_iff_exists.mp hend
  have hmarks : outside? text = some (before, after) := by
    unfold outside?
    rw [hbefore, hafter]
    rfl
  have hfree : ¬ endMark.toList <:+: badges.toList := by
    rw [← cutFirst?_eq_none_iff (by decide), ← Option.not_isSome_iff_eq_none]
    exact hbadges
  obtain ⟨after', hmarks', hsame⟩ := outside?_filled hmarks hfree
  refine ⟨_, updateFile_of_replaced hread (replaced?_eq_some hmarks badges), ?_, ?_⟩
  · rw [hmarks, hmarks', ← hsame]
    simp
  · rw [replaced?_eq_some hmarks', ← hsame]
    simp [filled, String.ofList_inj]

/-- A text in which a line is between the marks. -/
def marked : String := "# Tools\n<!-- BADGES:START -->\nold\n<!-- BADGES:END -->\nUse them.\n"

theorem updateFile_again_marked :
    ∃ w new l, updateFile "README.md" "new" w
        = .ok true ((w.put "README.md" (.file new.toUTF8)).relog l) ∧
      outside? new = some ("# Tools\n".toList, "\nUse them.\n".toList) ∧
      replaced? new "new" = some new := by
  have htidy : Path.tidy "README.md" = "README.md" := by decide +kernel
  have hread :=
    World.readText_of_find (w := { root := .folder [("README.md", .file marked.toUTF8)] })
      (p := "README.md") (s := marked) rfl
  rw [Text.unifyNewlines_of_not_mem (by decide +kernel), String.ofList_toList, ← htidy] at hread
  have horder : InOrder marked :=
    ⟨"# Tools\n".toList, "\nold\n<!-- BADGES:END -->\nUse them.\n".toList, by decide +kernel,
      by decide +kernel⟩
  obtain ⟨new, ⟨l, hupdate⟩, hkept, hagain⟩ := updateFile_again "README.md" "new" hread
    (by decide +kernel) (by decide +kernel) (by decide +kernel)
  rw [htidy] at hupdate
  exact ⟨_, new, l, hupdate, (hkept.mpr horder).trans (by decide +kernel), hagain.mpr horder⟩

/-- **Marks that are out of order make the text between them double.** -/
theorem replaced?_reversed :
    replaced? "<!-- BADGES:END -->\nUse them.\n<!-- BADGES:START -->\n" "new"
      = some ("<!-- BADGES:END -->\nUse them.\n<!-- BADGES:START -->\nnew\n" ++
        "<!-- BADGES:END -->\nUse them.\n<!-- BADGES:START -->\n") := by
  decide +kernel

end Files

end AddonAudit.Badge
