/-
  AddonAudit.Proofs.Setup.Repinning — a version that is set is not set again.

  A pass replaces the versions behind one mark.  What stands before the first character of a mark
  decides which pins start there, so that a pass neither makes nor loses pins; behind the marks of a
  pass there is the new version afterwards, and the next characters do not prolong it.
-/
import AddonAudit.Proofs.Setup.References

namespace AddonAudit.Setup

open List

open Text (isDecimal isBlank afterFront?)

variable {m m' : Mark} {v cs out : List Char} {p : Pin}

/-! ## §1. Pins. -/

/-- What may stand before a version. -/
def Mark.IsLead : Mark → List Char → Prop
  | .revision, l => ∃ blanks, l = revisionWord ++ blanks ∧ ∀ c ∈ blanks, isBlank c
  | .handle, l => l = ['@']

theorem Mark.IsLead.first {l : List Char} (h : m.IsLead l) : ∃ l', l = m.first :: l' ∧ ∀ m' :
    Mark, m'.first ∉ l' := by
  cases m with
  | revision =>
    obtain ⟨blanks, rfl, hblank⟩ := h
    refine ⟨['e', 'v', ':'] ++ blanks, rfl, fun m' hm' => ?_⟩
    rcases mem_append.mp hm' with hm' | hm'
    · cases m' <;> exact absurd hm' (by decide)
    · cases m' <;> exact absurd (hblank _ hm') (by decide)
  | handle => exact ⟨[], h, fun _ => not_mem_nil⟩

/-- What a mark is split off from. -/
theorem Mark.split?_eq_some_iff {l r : List Char} (hr : r.head? = some 'v') :
    m.split? cs = some (l, r) ↔ m.IsLead l ∧ cs = l ++ r := by
  cases m with
  | revision =>
    unfold split?
    simp only [Option.bind_eq_bind, Option.bind_eq_some_iff, Text.afterFront?_eq_some_iff]
    constructor
    · rintro ⟨rest, rfl, h⟩
      cases h
      exact ⟨⟨_, rfl, fun c hc => mem_takeWhile_imp hc⟩, by rw [append_assoc,
        takeWhile_append_dropWhile]⟩
    · rintro ⟨⟨blanks, rfl, hblank⟩, rfl⟩
      obtain ⟨r, rfl⟩ := head?_eq_some_iff.mp hr
      have hstop : isBlank 'v' = false := by decide
      exact ⟨_, append_assoc .., by simp [takeWhile_append_of_pos hblank,
        dropWhile_append_of_pos hblank, hstop]⟩
  | handle =>
    unfold split?
    split
    · cases ‹Mark.handle = Mark.revision›
    · grind [IsLead]
    · grind [IsLead]

/-- **A pin is a mark with a version** after which there are no more digits. -/
theorem Mark.pin?_eq_some_iff :
    m.pin? cs = some p ↔ m.IsLead p.lead ∧ Numbered p.version ∧ ∃ rest, cs = p.text ++ rest ∧
    Stops rest := by
  unfold pin?
  simp only [Option.bind_eq_bind, Option.bind_eq_some_iff, Prod.exists, versionAtFront?_eq_some_iff]
  constructor
  · rintro ⟨l, _, hsplit, version, ⟨hversion, rest, rfl, hstops⟩, h⟩
    cases h
    obtain ⟨hl, rfl⟩ := (split?_eq_some_iff (by rw [head?_append, hversion.head]; rfl)).mp hsplit
    exact ⟨hl, hversion, rest, (append_assoc ..).symm, hstops⟩
  · rintro ⟨hl, hversion, rest, rfl, hstops⟩
    refine ⟨p.lead, p.version ++ rest, ?_, p.version, ⟨hversion, rest, rfl, hstops⟩, rfl⟩
    exact (split?_eq_some_iff (by rw [head?_append, hversion.head]; rfl)).mpr ⟨hl, append_assoc ..⟩

/-- Pins do not reach across the first character of another one. -/
theorem Mark.pin?_append (c : Char) (cs rest : List Char) :
    m.pin? (c :: (cs ++ m'.first :: rest)) = m.pin? (c :: cs) := by
  ext p
  simp only [pin?_eq_some_iff]
  refine and_congr_right fun hl => and_congr_right fun hversion => ?_
  obtain ⟨l, hl, hfree⟩ := hl.first
  have htext : p.text = m.first :: (l ++ p.version) := by rw [Pin.text, hl]; rfl
  have hnot : m'.first ∉ l ++ p.version := by
    rw [mem_append, not_or]
    exact ⟨hfree m', fun hmem => absurd (hversion.chars _ hmem) (by cases m' <;> decide)⟩
  have h := exists_stops_append hnot (by cases m' <;> decide) cs rest
  grind

/-! ## §2. Passes. -/

/-- What a pass makes of a text. -/
inductive Pass (m : Mark) (v : List Char) : List Char → List Char → Prop where
  | nil : Pass m v [] []
  | copy {c : Char} {cs out : List Char} (h : m.pin? (c :: cs) = none) (hrest : Pass m v cs out) :
    Pass m v (c :: cs) (c :: out)
  | set {p : Pin} {rest out : List Char} (h : m.pin? (p.text ++ rest) =
      some p) (hrest : Pass m v rest out) :
    Pass m v (p.text ++ rest) (p.lead ++ (v ++ out))

theorem pass_replaceFrom (m : Mark) (v cs : List Char) :
    Pass m v cs (m.replaceFrom (setTo v) 0 cs) := by
  induction hlength : cs.length using Nat.strong_induction_on generalizing cs with
  | _ n ih =>
    cases cs with
    | nil => exact .nil
    | cons c cs =>
      cases hpin : m.pin? (c :: cs) with
      | none =>
        rw [m.replaceFrom_of_pin?_eq_none _ hpin]
        exact .copy hpin (ih _ (by simp [← hlength]) cs rfl)
      | some p =>
        obtain ⟨hl, -, rest, heq, -⟩ := Mark.pin?_eq_some_iff.mp hpin
        have hne : p.text ≠ [] := by
          obtain ⟨l, hl, -⟩ := hl.first
          simp [Pin.text, hl]
        rw [heq] at hpin hlength ⊢
        rw [m.replaceFrom_of_pin?_eq_some _ hne hpin, Pin.fill_setTo, append_assoc]
        refine .set hpin (ih _ ?_ rest rfl)
        rw [← hlength, length_append]
        exact Nat.lt_add_of_pos_left (length_pos_iff.mpr hne)

/-- A pass adds no characters but those of the version. -/
theorem Pass.mem (h : Pass m v cs out) {c : Char} (hc : c ∈ out) : c ∈ cs ∨ c ∈ v := by
  induction h with
  | nil => exact .inl hc
  | copy _ _ ih => grind
  | set _ _ ih => grind [Pin.text]

/-- A pass keeps what stands before the first character of its first mark. -/
theorem Pass.front (h : Pass m v cs out) : out = cs ∨ ∃ x y y', cs = x ++ m.first :: y ∧
    out = x ++ m.first :: y' := by
  induction h with
  | nil => exact .inl rfl
  | @copy c _ _ _ _ ih =>
    rcases ih with rfl | ⟨x, y, y', rfl, rfl⟩
    · exact .inl rfl
    · exact .inr ⟨c :: x, y, y', rfl, rfl⟩
  | set h _ _ =>
    obtain ⟨l, hl, -⟩ := (Mark.pin?_eq_some_iff.mp h).1.first
    exact .inr ⟨[], _, _, by rw [Pin.text, hl]; rfl, by rw [hl]; rfl⟩

theorem Pass.pin?_cons (h : Pass m' v cs out) (c : Char) :
    m.pin? (c :: out) = m.pin? (c :: cs) := by
  rcases h.front with rfl | ⟨x, y, y', rfl, rfl⟩
  · rfl
  · rw [Mark.pin?_append, Mark.pin?_append]

theorem Pass.stops (h : Pass m v cs out) (hcs : Stops cs) : Stops out := by
  rcases h.front with rfl | ⟨x, y, y', rfl, rfl⟩
  · exact hcs
  · cases x <;> exact hcs

/-! ## §3. Settled texts. -/

/-- All pins of a text hold a version. -/
def Settled (m : Mark) (v cs : List Char) : Prop := ∀ s, s <:+ cs → ∀ p, m.pin? s = some p →
    p.version = v

theorem settled_cons {c : Char} :
    Settled m v (c :: cs) ↔ (∀ p, m.pin? (c :: cs) = some p → p.version = v) ∧ Settled m v cs := by
  simp [Settled, suffix_cons_iff, or_imp, forall_and]

theorem Settled.append (h : Settled m v cs) : ∀ {a : List Char}, m.first ∉ a → Settled m v (a ++ cs)
  | [], _ => h
  | c :: a, ha => by
    obtain ⟨hne, ha⟩ := ne_and_not_mem_of_not_mem_cons ha
    refine settled_cons.mpr ⟨fun p hp => ?_, h.append ha⟩
    cases (m.pin?_cons_of_ne hne.symm _).symm.trans hp

/-- **After a pass all its pins hold the version**, and a text that was settled for the other mark
    still is. -/
theorem Pass.settled (h : Pass m' v cs out) (hv : Numbered v) (hcs : m = m' ∨ Settled m v cs) :
    Settled m v out := by
  induction h with
  | nil => cases m <;> simp [Settled, Mark.pin?, Mark.split?, afterFront?, revisionWord]
  | copy hnone hrest ih =>
    refine settled_cons.mpr ⟨fun p hp => ?_, ih (hcs.imp_right fun h => (settled_cons.mp h).2)⟩
    rw [hrest.pin?_cons] at hp
    rcases hcs with rfl | hcs
    · cases hnone.symm.trans hp
    · exact (settled_cons.mp hcs).1 p hp
  | @set p rest out hpin hrest ih =>
    obtain ⟨hlead, -, rest', heq, hstops⟩ := Mark.pin?_eq_some_iff.mp hpin
    obtain rfl := append_cancel_left heq
    have hpin' : m'.pin? (p.lead ++ (v ++ out)) = some ⟨p.lead, v⟩ :=
      Mark.pin?_eq_some_iff.mpr ⟨hlead, hv, out, (append_assoc ..).symm, hrest.stops hstops⟩
    obtain ⟨l, hl, hfree⟩ := hlead.first
    have hout := ih (hcs.imp_right fun h s hs => h s (hs.trans (suffix_append _ _)))
    have hfirst : m.first ∉ l ++ v := by
      rw [mem_append, not_or]
      exact ⟨hfree m, fun hmem => absurd (hv.chars _ hmem) (by cases m <;> decide)⟩
    rw [hl, cons_append] at hpin' ⊢
    refine settled_cons.mpr ⟨fun q hq => ?_, by simpa using hout.append hfirst⟩
    by_cases hm : m = m'
    · subst hm
      cases hpin'.symm.trans hq
      rfl
    · have hne : m'.first ≠ m.first := by
        cases m <;> cases m' <;> first | decide | exact absurd rfl hm
      cases (m.pin?_cons_of_ne hne _).symm.trans hq

/-- A pass over a settled text changes nothing. -/
theorem Pass.eq_of_settled (h : Pass m v cs out) (hcs : Settled m v cs) : out = cs := by
  induction h with
  | nil => rfl
  | copy _ _ ih => rw [ih (settled_cons.mp hcs).2]
  | set hpin _ ih =>
    rw [ih fun s hs => hcs s (hs.trans (suffix_append _ _)), Pin.text, hcs _ (suffix_refl _) _ hpin,
      append_assoc]

/-! ## §4. Files. -/

/-- **Setting a version `vX.Y.Z` in a file a second time changes nothing.** -/
theorem pinFile_again {w : World} {path version text : String} (hcwd : Path.isAbsolute w.cwd)
    (hversion : IsVersion version.toList) (hread : w.readText path = .ok text) :
    ∃ changed w', pinFile path version false w = .ok changed w' ∧
      pinFile path version false w' = .ok false w' := by
  have hfirst := pass_replaceFrom .revision version.toList text.toList
  have hsecond := pass_replaceFrom .handle version.toList
    (Mark.replaceFrom .revision (setTo version.toList) 0 text.toList)
  have hpin := pinVersion_eq (hversion.not_mem (by decide)) text
  generalize Mark.replaceFrom .revision (setTo version.toList) 0 text.toList =
    mid at hfirst hsecond hpin
  generalize Mark.replaceFrom .handle (setTo version.toList) 0 mid = new at hsecond hpin
  -- after both passes neither mark pins another version
  have hrevision := hsecond.settled hversion.numbered
    (.inr (hfirst.settled hversion.numbered (.inl rfl)))
  have hhandle := hsecond.settled (m := .handle) hversion.numbered (.inl rfl)
  have hpin' : pinVersion version (String.ofList new) = .ok (String.ofList new) := by
    rw [pinVersion_eq (hversion.not_mem (by decide)), String.toList_ofList,
      (pass_replaceFrom ..).eq_of_settled hrevision, (pass_replaceFrom ..).eq_of_settled hhandle]
  have hagain {w'} (hread' : w'.readText path = .ok (String.ofList new)) :
      pinFile path version false w' = .ok false w' :=
    (pinFile_cases hread' hpin').elim And.right fun h => absurd rfl h.1
  rcases pinFile_cases hread hpin with ⟨hsame, hend⟩ | ⟨-, l, hend⟩
  · exact ⟨_, _, hend, hagain (by rw [hread, hsame])⟩
  · refine ⟨_, _, hend, hagain ?_⟩
    obtain ⟨b, hfind⟩ := World.find_of_readText hread
    -- no line end changes when the file is read once more
    have hclean : '\r' ∉ new := fun hmem =>
      (hsecond.mem hmem).elim (fun hmem => (hfirst.mem hmem).elim (World.unified_of_readText hread)
        (hversion.not_mem (by decide))) (hversion.not_mem (by decide))
    rw [World.readText_relog, World.readText_put hcwd hfind, String.toList_ofList,
      Text.unifyNewlines_of_not_mem hclean]

theorem pinFile_again_twoHooks :
    ∃ changed w', pinFile hooksFile "v1.0.2" false twoHooksWorld = .ok changed w' ∧
      pinFile hooksFile "v1.0.2" false w' = .ok false w' :=
  pinFile_again rfl isVersion_next readText_twoHooksWorld

/-- **What follows `vX.Y.Z` in a version is written once more each time.** -/
theorem pinVersion_candidate : pinVersion "v1.2.3-rc1" "rev: v1.0.1\n" = .ok "rev: v1.2.3-rc1\n" ∧
      pinVersion "v1.2.3-rc1" "rev: v1.2.3-rc1\n" = .ok "rev: v1.2.3-rc1-rc1\n" := by
  rw [pinVersion_eq (by decide), pinVersion_eq (by decide)]
  exact ⟨congrArg Except.ok (by decide +kernel), congrArg Except.ok (by decide +kernel)⟩

end AddonAudit.Setup
