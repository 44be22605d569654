/-
  AddonAudit.Proofs.Setup.Settings — the values that the settings of a repository get.

  The settings start as a template, in which the scope and the release version are set by replacing
  phrases.
-/
import AddonAudit.Proofs.Settings.Release
import AddonAudit.Proofs.Setup.Pin
import AddonAudit.Setup.Repository

namespace AddonAudit.Setup

open List
open Text (toList_replace)

/-! ## §1. Replacing. -/

section Values

open Text (cutFirst? replaceCount replaceChars_of_ne_nil)

variable {part : List Char}

theorem replace_of_not_contains {s part : String} (hpart : part ≠ "")
    (h : Text.contains s part = false) (by_ : String) : Text.replace s part by_ = s := by
  have hnone : cutFirst? part.toList s.toList = none := by
    unfold Text.contains Text.occurs at h
    simpa using h
  unfold Text.replace
  rw [replaceChars_of_ne_nil (by simpa using hpart), replaceCount, hnone, String.ofList_toList]

theorem replaceParts_concat (text : String) (xs : List (String × String)) (x : String × String) :
    replaceParts text (xs ++ [x]) = if Text.contains (replaceParts text xs).1 x.1
      then (Text.replace (replaceParts text xs).1 x.1 x.2, true) else replaceParts text xs := by
  unfold replaceParts
  rw [foldl_append]
  rfl

/-- What replacing parts one after another gives. -/
theorem replaceParts_fst {xs : List (String × String)} (h : ∀ x ∈ xs, x.1 ≠ "") (text : String) :
    (replaceParts text xs).1 = xs.foldl (fun t x => Text.replace t x.1 x.2) text := by
  induction xs using reverseRecOn with
  | nil => rfl
  | append_singleton xs x ih =>
    have ih := ih fun y hy => h y (mem_append_left _ hy)
    rw [replaceParts_concat, foldl_append, foldl_cons, foldl_nil, ← ih]
    cases hcontains : Text.contains (replaceParts text xs).1 x.1 with
    | true => rfl
    | false => rw [replace_of_not_contains (h x (by simp)) hcontains]; rfl

theorem replaceParts_of_not_found {xs : List (String × String)} {text : String}
    (h : (replaceParts text xs).2 = false) : (replaceParts text xs).1 = text := by
  induction xs using reverseRecOn with
  | nil => rfl
  | append_singleton xs x ih =>
    rw [replaceParts_concat] at h ⊢
    split at h
    · cases h
    · rename_i hnone
      rw [if_neg hnone]
      exact ih h

/-- **Setting a value rewrites words.** -/
theorem rewritten_replace (ws : Yaml.Words) (stem text : List Char) (fuel : Nat) :
    Yaml.Rewritten ws .loose text
      (replaceCount fuel (stem ++ ':' :: ' ' :: ws.old) (stem ++ ':' :: ' ' :: ws.new) text) := by
  have hbefore : ∀ {a r r' : List Char}, Yaml.Rewritten ws .loose r r' →
      Yaml.Rewritten ws .loose (a ++ r) (a ++ r') := by
    intro a r r' h
    induction a with
    | nil => exact h
    | cons c a ih => exact .cons c ih
  induction fuel generalizing text with
  | zero => exact .refl text
  | succ fuel ih =>
    unfold replaceCount
    split
    · rename_i a rest hcut
      rw [Text.cutFirst?_eq_some hcut]
      simp only [append_assoc, cons_append]
      exact hbefore (hbefore (.colon (.space (.word (ih rest)))))
    · exact .refl text

end Values

/-! ## §2. The text of the settings. -/

/-- A template with the scope set. -/
def Request.withScope (r : Request) (template : String) : String :=
  if r.scope = "changed" then template
  else Text.replace template "validation_scope: changed" ("validation_scope: " ++ r.scope)

/-- A template with the release version set. -/
def Request.withRelease (r : Request) (template : String) : String :=
  Text.replace template "odoo_version: auto" ("odoo_version: " ++ r.release)

variable {r : Request}

theorem mem_replacements {x : String × String} (hx : x ∈ r.replacements) :
    r.scope ≠ "changed" ∧ x = ("validation_scope: changed", "validation_scope: " ++ r.scope) ∨
      r.release ≠ "auto" ∧ x = ("odoo_version: auto", "odoo_version: " ++ r.release) := by
  rcases mem_append.mp hx with hx | hx
  · exact .inl (by simpa using hx)
  · exact .inr (by simpa using hx)

theorem replaceParts_replacements (template : String) : (replaceParts template r.replacements).1
      = if r.release = "auto" then r.withScope template else r.withRelease
      (r.withScope template) := by
  have hparts : ∀ x ∈ r.replacements, x.1 ≠ "" := by
    intro x hx
    rcases mem_replacements hx with ⟨-, rfl⟩ | ⟨-, rfl⟩
    · exact (by decide : "validation_scope: changed" ≠ "")
    · exact (by decide : "odoo_version: auto" ≠ "")
  rw [replaceParts_fst hparts]
  unfold Request.replacements Request.withRelease Request.withScope
  by_cases hscope : r.scope = "changed" <;> by_cases hrelease :
    r.release = "auto" <;> simp [hscope, hrelease]

/-- Replacing parts brings in no characters but those of the new parts. -/
theorem not_mem_replaceParts {xs : List (String × String)} {c : Char} {text : String}
    (hxs : ∀ x ∈ xs, x.1 ≠ "" ∧ c ∉ x.2.toList) (h : c ∉ text.toList) :
    c ∉ (replaceParts text xs).1.toList := by
  induction xs using reverseRecOn with
  | nil => exact h
  | append_singleton xs x ih =>
    have hbefore := ih fun y hy => hxs y (mem_append_left _ hy)
    obtain ⟨hpart, hby⟩ := hxs x (by simp)
    rw [replaceParts_concat]
    split
    · exact fun hmem => (Text.mem_replace hpart hmem).elim hbefore hby
    · exact hbefore

/-- Line ends stay unified when the values are set. -/
theorem unified_replaceParts (hscope : r.scope = "changed" ∨ r.scope = "full")
    (hrelease : r.release = "auto" ∨ r.release ∈ Release.supported) {text : String}
    (h : '\r' ∉ text.toList) :
    '\r' ∉ (replaceParts text r.replacements).1.toList := by
  refine not_mem_replaceParts (fun x hx => ?_) h
  rcases mem_replacements hx with ⟨hchanged, rfl⟩ | ⟨hauto, rfl⟩
  · rw [hscope.resolve_left hchanged]
    decide
  · have hversion := hrelease.resolve_left hauto
    simp only [Release.supported, mem_cons, not_mem_nil, or_false] at hversion
    rcases hversion with hr | hr | hr <;> rw [hr] <;> decide

theorem toList_setRelease (release : String) :
    ("odoo_version: " ++ release).toList = "odoo_version".toList ++
    ':' :: ' ' :: release.toList := by
  rw [String.toList_append, show "odoo_version: ".toList = "odoo_version".toList ++
    [':', ' '] by decide, append_assoc]
  rfl

/-- Setting the release version rewrites the words that leave it open. -/
theorem rewritten_withRelease {r : Request} (hr : r.release ∈ Release.supported) (text : String) :
    Yaml.Rewritten (Yaml.overAuto r.release hr) .loose text.toList (r.withRelease text).toList := by
  have hpart : "odoo_version: auto".toList = "odoo_version".toList ++
      ':' :: ' ' :: "auto".toList := by
    decide
  unfold Request.withRelease
  rw [toList_replace _ _ (by decide), hpart, toList_setRelease]
  exact rewritten_replace (Yaml.overAuto r.release hr) _ _ _

end AddonAudit.Setup
