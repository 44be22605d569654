/-
  AddonAudit.Proofs.Model.Declarations — what the sources of an addon declare.

  A survey lists every class once, under the name that it has.  The declarations of several files
  are collected by file and class, a later one giving way to none but its equals; so they are
  exactly what each of the files declares, however often a file is read.
-/
import AddonAudit.Model.Checks
import AddonAudit.Proofs.Traversal
import Mathlib.Data.List.Nodup

namespace AddonAudit.Model

open List

open Source (Expr Stmt)
open Traversal (bind_ok_iff mem_of_mapM_ok)

/-! ## §1. Models under their names. -/

/-- Models that are listed under their own names, each name once. -/
structure WellNamed (models : List (String × ModelInfo)) : Prop where
  nodup : (models.map Prod.fst).Nodup
  named : ∀ p ∈ models, p.2.name = p.1

theorem wellNamed_nil : WellNamed [] := ⟨nodup_nil, fun _ h => by cases h⟩

theorem mem_setModel {name : String} {m : ModelInfo} {models : List (String × ModelInfo)}
    {p : String × ModelInfo} (h : p ∈ setModel name m models) : p = (name, m) ∨ p ∈ models := by
  induction models with
  | nil => exact .inl (mem_singleton.mp h)
  | cons q models ih =>
    unfold setModel at h
    split at h
    next hq =>
      rcases mem_cons.mp h with rfl | h
      · exact .inl (Prod.ext (eq_of_beq hq) rfl)
      · exact .inr (mem_cons_of_mem _ h)
    next =>
      rcases mem_cons.mp h with rfl | h
      · exact .inr mem_cons_self
      · exact (ih h).imp_right (mem_cons_of_mem _)

/-- Recording a model under its name keeps all models under theirs. -/
theorem WellNamed.setModel {name : String} {m : ModelInfo} {models : List (String × ModelInfo)}
    (h : WellNamed models) (hm : m.name = name) : WellNamed (setModel name m models) where
  nodup := by
    replace h := h.nodup
    induction models with
    | nil => exact nodup_singleton name
    | cons q models ih =>
      rw [map_cons, nodup_cons] at h
      unfold Model.setModel
      split
      next => exact nodup_cons.mpr h
      next hq =>
        refine nodup_cons.mpr ⟨fun hmem => ?_, ih h.2⟩
        obtain ⟨p, hp, hpq⟩ := mem_map.mp hmem
        rcases mem_setModel hp with rfl | hp
        · exact hq (beq_iff_eq.mpr hpq.symm)
        · exact h.1 (mem_map.mpr ⟨p, hp, hpq⟩)
  named p hp := by
    rcases mem_setModel hp with rfl | hp
    · exact hm
    · exact h.named p hp

theorem declare_name (target : String) (value : Expr) (m : ModelInfo) :
    (declare target value m).name = m.name := by
  unfold declare
  split
  · rfl
  · split
    · split
      · rfl
      · split <;> rfl
    · rfl

theorem declareStmt_name (m : ModelInfo) (s : Stmt) : (declareStmt m s).name = m.name := by
  unfold declareStmt
  split
  next targets value =>
    induction targets generalizing m with
    | nil => rfl
    | cons t targets ih =>
      rw [foldl_cons, ih]
      split
      · exact declare_name _ _ _
      · rfl
  next => rfl

/-- A model has the name of its class, whatever the class declares. -/
theorem modelOf_name (line : Nat) (name : String) (bases : List Expr) (body : List Stmt) :
    (modelOf line name bases body).name = name := by
  have hfold : ∀ (body : List Stmt) (m : ModelInfo), (body.foldl declareStmt m).name = m.name := by
    intro body
    induction body with
    | nil => exact fun _ => rfl
    | cons s body ih =>
      intro m
      rw [foldl_cons, ih, declareStmt_name]
  exact hfold body _

/-! ## §2. The walk. -/

theorem Walk.addMethod_models (w : Walk) (m : MethodInfo) :
    (w.addMethod m).survey.models = w.survey.models := by
  unfold Walk.addMethod
  split <;> rfl

theorem Walk.addFields_models (w : Walk) (fs : List FieldInfo) :
    (w.addFields fs).survey.models = w.survey.models := by
  unfold Walk.addFields
  split <;> rfl

mutual
/-- A statement that is walked keeps models under their names; only a class adds one. -/
theorem wellNamed_walkStmt (w : Walk) (h : WellNamed w.survey.models) :
    ∀ s : Stmt, WellNamed (walkStmt w s).survey.models
  | .classDef line name bases _ body => by
    unfold walkStmt
    exact wellNamed_walkBody _ (h.setModel (modelOf_name line name bases body)) body
  | .functionDef line name decorators body => by
    unfold walkStmt
    refine wellNamed_walkBody _ ?_ body
    rw [Walk.addMethod_models]
    exact h
  | .assign line targets value => by
    unfold walkStmt
    rw [Walk.addFields_models]
    exact h
  | .compound _ body => by
    unfold walkStmt
    exact wellNamed_walkBody w h body
  | .expr _ _ => by
    unfold walkStmt
    exact h
  | .simple _ => by
    unfold walkStmt
    exact h

theorem wellNamed_walkBody (w : Walk) (h : WellNamed w.survey.models) :
    ∀ body : List Stmt, WellNamed (walkBody w body).survey.models
  | [] => by
    unfold walkBody
    exact h
  | s :: rest => by
    unfold walkBody
    exact wellNamed_walkBody _ (wellNamed_walkStmt w h s) rest
end

/-- **A survey lists every class once, under its name.** -/
theorem wellNamed_survey (body : List Stmt) : WellNamed (survey body).models :=
  wellNamed_walkBody {} wellNamed_nil body

variable {file : String} {w : World} {d e : Declaration}

theorem wellNamed_of_readSource {r : Reading} (h : readSource w file = .ok r) :
    WellNamed r.survey.models := by
  obtain ⟨text, -, h⟩ := bind_ok_iff.mp h
  split at h
  · cases h
    exact wellNamed_survey _
  · cases h
    exact wellNamed_nil

/-! ## §3. Declarations of several files. -/

/-- Declarations of one class of one file. -/
def Declaration.SameClass (d e : Declaration) :
    Prop := d.file = e.file ∧ d.model.name = e.model.name

theorem mem_of_mem_setDeclaration {ds : List Declaration} (h : e ∈ setDeclaration d ds) :
    e = d ∨ e ∈ ds := by
  induction ds with
  | nil => exact .inl (mem_singleton.mp h)
  | cons x ds ih =>
    unfold setDeclaration at h
    split at h
    · rcases mem_cons.mp h with rfl | h
      · exact .inl rfl
      · exact .inr (mem_cons_of_mem _ h)
    · rcases mem_cons.mp h with rfl | h
      · exact .inr mem_cons_self
      · exact (ih h).imp_right (mem_cons_of_mem _)

/-- Recording a declaration loses none if those of one class agree. -/
theorem mem_setDeclaration {ds : List Declaration} (hagree : ∀ x ∈ ds, x.SameClass d → x = d)
    (h : e = d ∨ e ∈ ds) : e ∈ setDeclaration d ds := by
  induction ds with
  | nil =>
    rcases h with rfl | h
    · exact mem_singleton.mpr rfl
    · cases h
  | cons x ds ih =>
    unfold setDeclaration
    split
    next hsame =>
      rw [Bool.and_eq_true] at hsame
      have hx : x = d := hagree x mem_cons_self ⟨eq_of_beq hsame.1, eq_of_beq hsame.2⟩
      rw [← hx] at h ⊢
      exact mem_cons.mpr (h.elim .inl mem_cons.mp)
    next =>
      have hrest : ∀ y ∈ ds, y.SameClass d → y = d :=
        fun y hy => hagree y (mem_cons_of_mem _ hy)
      rcases h with rfl | h
      · exact mem_cons_of_mem _ (ih hrest (.inl rfl))
      · rcases mem_cons.mp h with rfl | h
        · exact mem_cons_self
        · exact mem_cons_of_mem _ (ih hrest (.inr h))

/-- Declarations that are recorded one after another are all kept if those of one class agree. -/
theorem mem_foldl_setDeclaration (xs : List Declaration) : ∀ ds : List Declaration,
      (∀ x, x ∈ ds ∨ x ∈ xs → ∀ y, y ∈ ds ∨ y ∈ xs → x.SameClass y → x = y) →
      (e ∈ xs.foldl (fun ds d => setDeclaration d ds) ds ↔ e ∈ ds ∨ e ∈ xs) := by
  induction xs with
  | nil => exact fun ds _ => ⟨.inl, fun h => h.elim id (fun h => by cases h)⟩
  | cons d xs ih =>
    intro ds hagree
    -- what is recorded so far stays among what was there before and what was to come
    have hback : ∀ x, x ∈ setDeclaration d ds ∨ x ∈ xs → x ∈ ds ∨ x ∈ d :: xs := by
      intro x hx
      rcases hx with hx | hx
      · rcases mem_of_mem_setDeclaration hx with rfl | hx
        · exact .inr mem_cons_self
        · exact .inl hx
      · exact .inr (mem_cons_of_mem _ hx)
    rw [foldl_cons, ih _ fun x hx y hy => hagree x (hback x hx) y (hback y hy)]
    refine ⟨hback e, fun h => ?_⟩
    have hset : e = d ∨ e ∈ ds → e ∈ setDeclaration d ds :=
      mem_setDeclaration fun x hx => hagree x (.inl hx) d (.inr mem_cons_self)
    rcases h with h | h
    · exact .inl (hset (.inr h))
    · exact (mem_cons.mp h).imp_left fun h => hset (.inl h)

/-- The classes of one survey are told apart by their names. -/
theorem eq_of_mem_declarationsOf {s : Survey} (hs : WellNamed s.models)
    (hd : d ∈ declarationsOf file s) (he : e ∈ declarationsOf file s)
    (hname : d.model.name = e.model.name) : d = e := by
  obtain ⟨⟨name, m⟩, hm, rfl⟩ := mem_map.mp hd
  obtain ⟨⟨name', m'⟩, hm', rfl⟩ := mem_map.mp he
  have hkey : name = name' := (hs.named _ hm).symm.trans (hname.trans (hs.named _ hm'))
  subst hkey
  cases inj_on_of_nodup_map hs.nodup hm hm' rfl
  rfl

theorem file_of_mem_declarationsOf {s : Survey} (h : d ∈ declarationsOf file s) :
    d.file = file := by
  obtain ⟨p, -, rfl⟩ := mem_map.mp h
  rfl

theorem readSource_of_mem {files : List String} {readings : List (String × Reading)}
    (h : readSources w files = .ok readings) {p : String × Reading} (hp : p ∈ readings) :
    readSource w p.1 = .ok p.2 := by
  obtain ⟨file, -, hfile⟩ := mem_of_mapM_ok h hp
  obtain ⟨r, hr, hpair⟩ := bind_ok_iff.mp hfile
  cases hpair
  exact hr

/-- **The declarations of files that were read are those of each of them.** -/
theorem mem_declarations_iff {files : List String} {readings : List (String × Reading)}
    (h : readSources w files = .ok readings) (d : Declaration) :
    d ∈ declarations readings ↔ ∃ p ∈ readings, d ∈ declarationsOf p.1 p.2.survey := by
  have hmem : ∀ d, d ∈ readings.flatMap (fun p => declarationsOf p.1 p.2.survey) ↔
      ∃ p ∈ readings, d ∈ declarationsOf p.1 p.2.survey := fun _ => mem_flatMap
  -- a file that is read twice gives the same reading, and a reading has each class once
  have hagree : ∀ x, x ∈ readings.flatMap (fun p => declarationsOf p.1 p.2.survey) →
      ∀ y, y ∈ readings.flatMap (fun p => declarationsOf p.1 p.2.survey) → x.SameClass y →
      x = y := by
    intro x hx y hy hsame
    obtain ⟨⟨file, r⟩, hp, hx⟩ := (hmem x).mp hx
    obtain ⟨⟨file', r'⟩, hp', hy⟩ := (hmem y).mp hy
    have hfile : file = file' :=
      (file_of_mem_declarationsOf hx).symm.trans (hsame.1.trans (file_of_mem_declarationsOf hy))
    subst hfile
    have hr : readSource w file = .ok r := readSource_of_mem h hp
    have hr' : readSource w file = .ok r' := readSource_of_mem h hp'
    cases hr.symm.trans hr'
    exact eq_of_mem_declarationsOf (wellNamed_of_readSource hr) hx hy hsame.2
  unfold declarations
  rw [← hmem]
  refine (mem_foldl_setDeclaration _ [] fun x hx y hy => ?_).trans ?_
  · exact hagree x (hx.resolve_left (by simp)) y (hy.resolve_left (by simp))
  · exact or_iff_right (by simp)

end AddonAudit.Model
