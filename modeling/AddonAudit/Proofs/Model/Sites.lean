/-
  AddonAudit.Proofs.Model.Sites — where the statements of a source file stand.

  Every statement has a site: the definitions around it, and what ends before it in the innermost
  class.  A survey goes through the sites in order and keeps one class in mind: the innermost one,
  until a class in it ends.  So it misses what stands behind a class in a class, and it lists what
  stands inside the functions of a class along with what stands in the class itself.
-/
import AddonAudit.Model.Survey
import AddonAudit.Proofs.Findings
import Mathlib.Data.List.Flatten

namespace AddonAudit.Model

open List Groups

open Source (Expr Stmt)

/-! ## §1. Sites. -/

/-- A definition around a statement. -/
inductive Scope where
  | ofClass (name : String)
  | ofFunction (name : String)
  deriving DecidableEq

/-- A statement with what is around it. -/
structure Site where
  /-- The definitions around it, the innermost first. -/
  scopes : List Scope
  /-- What ends before it in the innermost class, or in the file if it is in none. -/
  earlier : List Stmt
  stmt : Stmt

mutual
/-- The sites of a statement and of all in it. -/
def sitesOf (scopes : List Scope) (earlier : List Stmt) (s : Stmt) : List Site :=
  ⟨scopes, earlier, s⟩ :: match s with
    | .classDef _ name _ _ body => sitesIn (.ofClass name :: scopes) [] body
    | .functionDef _ name _ body => sitesIn (.ofFunction name :: scopes) earlier body
    | .compound _ body => sitesIn scopes earlier body
    | .assign .. | .expr .. | .simple .. => []

/-- The sites of statements that follow one another. -/
def sitesIn (scopes : List Scope) (earlier : List Stmt) : List Stmt → List Site
  | [] => []
  | s :: rest => sitesOf scopes earlier s ++ sitesIn scopes (earlier ++ [s]) rest
end

/-- The sites of a file. -/
def sites (body : List Stmt) : List Site := sitesIn [] [] body

mutual
/-- Whether there is a class in a statement, at any depth. -/
def hasClass : Stmt → Bool
  | .classDef .. => true
  | .functionDef _ _ _ body => haveClass body
  | .compound _ body => haveClass body
  | .assign .. | .expr .. | .simple .. => false

/-- Whether there is a class in statements. -/
def haveClass : List Stmt → Bool
  | [] => false
  | s :: rest => hasClass s || haveClass rest
end

/-- The innermost class of some scopes. -/
def innermostClass : List Scope → Option String
  | [] => none
  | .ofClass name :: _ => some name
  | .ofFunction _ :: rest => innermostClass rest

/-- The class that a survey has in mind: the innermost one, unless a class in it has ended. -/
def classInMind (scopes : List Scope) (earlier : List Stmt) : Option String :=
  if haveClass earlier then none else innermostClass scopes

namespace Site

/-- The class that a survey has in mind at a site. -/
def inMind (x : Site) : Option String := classInMind x.scopes x.earlier

/-- Whether the innermost definition around a site is a class. -/
def standsIn (c : String) (x : Site) : Bool := x.scopes.head? == some (.ofClass c)

/-- Whether a site is inside a function. -/
def isLocal (x : Site) : Bool := x.scopes.any fun
  | .ofFunction _ => true
  | .ofClass _ => false

/-- The method that a function definition makes. -/
def methods (x : Site) : List MethodInfo :=
  match x.stmt with
  | .functionDef line name decorators body => [methodOf line name decorators body]
  | _ => []

/-- The fields that an assignment makes. -/
def fields (x : Site) : List FieldInfo :=
  match x.stmt with
  | .assign line targets value => fieldsOf line targets value
  | _ => []

/-- What a survey records at a site. -/
def record (sv : Survey) (x : Site) : Survey :=
  let w : Walk := ⟨x.inMind, sv⟩
  match x.stmt with
  | .classDef line name bases _ body => (w.enter name (modelOf line name bases body)).survey
  | .functionDef line name decorators body =>
    (w.addMethod (methodOf line name decorators body)).survey
  | .assign line targets value => (w.addFields (fieldsOf line targets value)).survey
  | _ => sv

end Site

/-! ## §2. A survey as a sequence of records. -/

theorem haveClass_append (a b : List Stmt) : haveClass (a ++ b) = (haveClass a || haveClass b) := by
  induction a with
  | nil => rfl
  | cons s a ih => rw [cons_append, haveClass, haveClass, ih, Bool.or_assoc]

/-- A statement that is no class counts as the classes in it. -/
theorem classInMind_concat {scopes : List Scope} {earlier body : List Stmt} {s : Stmt}
    (h : hasClass s = haveClass body) :
    classInMind scopes (earlier ++ [s]) = classInMind scopes (earlier ++ body) := by
  unfold classInMind
  rw [haveClass_append, haveClass_append, haveClass, haveClass, Bool.or_false, h]

theorem classInMind_plain {scopes : List Scope} {earlier : List Stmt} {s : Stmt}
    (h : hasClass s = false) :
    classInMind scopes (earlier ++ [s]) = classInMind scopes earlier := by
  unfold classInMind
  rw [haveClass_append, haveClass, haveClass, h, Bool.or_false, Bool.or_false]

theorem Walk.addMethod_eq (w : Walk) (m : MethodInfo) :
    w.addMethod m = ⟨w.current, (w.addMethod m).survey⟩ := by
  unfold addMethod
  split <;> rfl

theorem Walk.addFields_eq (w : Walk) (fs : List FieldInfo) :
    w.addFields fs = ⟨w.current, (w.addFields fs).survey⟩ := by
  unfold addFields
  split <;> rfl

mutual
/-- **A walk through a statement records its sites**, and has the right class in mind behind it. -/
theorem walkStmt_eq (scopes : List Scope) (earlier : List Stmt) (sv : Survey) : ∀ s : Stmt,
    walkStmt ⟨classInMind scopes earlier, sv⟩ s
      = ⟨classInMind scopes (earlier ++ [s]), (sitesOf scopes earlier s).foldl Site.record sv⟩
  | .classDef line name bases _ body => by
    rw [walkStmt, sitesOf, foldl_cons]
    -- a class is entered with nothing before it, and left with no class in mind
    have hbody := walkBody_eq (.ofClass name :: scopes) []
      (Walk.enter ⟨classInMind scopes earlier, sv⟩ name (modelOf line name bases body)).survey body
    have hnone : classInMind scopes (earlier ++ [.classDef line name bases ‹_› body]) = none := by
      rw [classInMind, haveClass_append, haveClass, hasClass, Bool.true_or, Bool.or_true,
        if_pos rfl]
    rw [hnone]
    exact congrArg (fun w : Walk => { w with current := none }) hbody
  | .functionDef line name decorators body => by
    -- a function keeps the class and what ended in it before
    rw [walkStmt, sitesOf, foldl_cons, Walk.addMethod_eq, classInMind_concat (by rw [hasClass])]
    exact walkBody_eq (.ofFunction name :: scopes) earlier _ body
  | .assign line targets value => by
    rw [walkStmt, sitesOf, Walk.addFields_eq, classInMind_plain (by rw [hasClass])]
    rfl
  | .compound line body => by
    rw [walkStmt, sitesOf, foldl_cons, classInMind_concat (by rw [hasClass])]
    exact walkBody_eq scopes earlier _ body
  | .expr _ _ => by
    rw [walkStmt, sitesOf, classInMind_plain (by rw [hasClass])]
    rfl
  | .simple _ => by
    rw [walkStmt, sitesOf, classInMind_plain (by rw [hasClass])]
    rfl

/-- So does a walk through statements. -/
theorem walkBody_eq (scopes : List Scope) (earlier : List Stmt) (sv : Survey) : ∀ body : List Stmt,
    walkBody ⟨classInMind scopes earlier, sv⟩ body
      = ⟨classInMind scopes (earlier ++ body), (sitesIn scopes earlier body).foldl Site.record sv⟩
  | [] => by
    rw [walkBody, sitesIn, append_nil]
    rfl
  | s :: rest => by
    rw [walkBody, walkStmt_eq scopes earlier sv s, walkBody_eq scopes (earlier ++ [s]) _ rest,
      sitesIn, foldl_append, append_assoc, singleton_append]
end

/-- **A survey is what the sites of the file record.** -/
theorem survey_eq (body : List Stmt) : survey body = (sites body).foldl Site.record {} :=
  congrArg Walk.survey (walkBody_eq [] [] {} body)

/-! ## §3. What is listed under a class. -/

variable {α : Type} {c : String}

theorem get_foldl_add (fs : List α) : ∀ (key : String) (g : Groups String α),
    get c (fs.foldl (fun g f => add key f g) g) = get c g ++ if key = c then fs else [] := by
  induction fs with
  | nil => simp
  | cons f fs ih =>
    intro key g
    rw [foldl_cons, ih, add, get_append, append_assoc]
    by_cases hkey : key = c <;> simp [hkey]

/-- The sites at which a survey has a class in mind. -/
def sitesUnder (body : List Stmt) (c : String) :
    List Site := (sites body).filter fun x => x.inMind == some c

/-- What grows at each site by what the site has for a class is in the end all that its sites
    have. -/
theorem get_survey (get : Survey → List α) {own : Site → List α} (hnone : get {} = [])
    (hrecord : ∀ sv x, get (x.record sv) = get sv ++ if x.inMind = some c then own x else [])
    (body : List Stmt) : get (survey body) = (sitesUnder body c).flatMap own := by
  have hfold : ∀ (xs : List Site) (sv : Survey), get (xs.foldl Site.record sv)
      = get sv ++ (xs.filter fun x => x.inMind == some c).flatMap own := by
    intro xs
    induction xs with
    | nil => simp
    | cons x xs ih =>
      intro sv
      rw [foldl_cons, ih, hrecord, append_assoc, filter_cons]
      by_cases hx : x.inMind = some c <;> simp [hx]
  rw [survey_eq, hfold, hnone, nil_append, sitesUnder, sites]

/-- **The methods listed under a class** are those of the sites at which it is in mind. -/
theorem get_methods_survey (body : List Stmt) (c : String) :
    get c (survey body).methods = (sitesUnder body c).flatMap Site.methods := by
  refine get_survey (fun sv => get c sv.methods) rfl (fun sv x => ?_) body
  unfold Site.record Site.methods
  cases x.stmt with
  | functionDef line name decorators body =>
    unfold Walk.addMethod
    cases hx : x.inMind with
    | none => simp
    | some k =>
      show get c (append k _ sv.methods) = _
      rw [get_append]
      by_cases hk : k = c <;> simp [hk]
  | assign line targets value =>
    unfold Walk.addFields
    cases x.inMind <;> simp
  | _ => simp [Walk.enter]

/-- **The fields listed under a class**, likewise. -/
theorem get_fields_survey (body : List Stmt) (c : String) :
    get c (survey body).fields = (sitesUnder body c).flatMap Site.fields := by
  refine get_survey (fun sv => get c sv.fields) rfl (fun sv x => ?_) body
  unfold Site.record Site.fields
  cases x.stmt with
  | functionDef line name decorators body =>
    unfold Walk.addMethod
    cases x.inMind <;> simp
  | assign line targets value =>
    unfold Walk.addFields
    cases hx : x.inMind with
    | none => simp
    | some k =>
      show get c (foldl _ sv.fields _) = _
      rw [get_foldl_add]
      simp
  | _ => simp [Walk.enter]

/-! ## §4. What is kept and what is local. -/

/-- **What stands in a class with no class before it is listed under the class**, in order and as
    often as it stands there. -/
theorem survey_keeps (body : List Stmt) (c : String) :
    (((sites body).filter fun x => x.standsIn c && !haveClass x.earlier).flatMap
        Site.methods).Sublist (Groups.get c (survey body).methods) ∧
      (((sites body).filter fun x => x.standsIn c && !haveClass x.earlier).flatMap
        Site.fields).Sublist (Groups.get c (survey body).fields) := by
  have hunder : ((sites body).filter fun x => x.standsIn c &&
      !haveClass x.earlier).Sublist (sitesUnder body c) := by
    refine List.monotone_filter_right _ fun x hx => ?_
    obtain ⟨hclass, hnone⟩ := Bool.and_eq_true_iff.mp hx
    obtain ⟨rest, hscopes⟩ := List.head?_eq_some_iff.mp (beq_iff_eq.mp hclass)
    rw [Site.inMind, classInMind, if_neg (by simpa using hnone), hscopes, innermostClass,
      beq_iff_eq]
  rw [get_methods_survey, get_fields_survey]
  exact ⟨hunder.flatMap _, hunder.flatMap _⟩

/-- A class behind which a method stands in a class. -/
def methodBehindClass : List Stmt :=
  [.classDef 1 "Order" [] [] [
    .classDef 2 "Line" [] [] [.simple 3],
    .functionDef 4 "total" [] [.simple 5],
    .assign 6 [.name 6 "amount"] (.call 6 (.attribute 6 (.name 6 "fields") "Float") [] [])]]

/-- **A method and a field behind a class are lost**, though the class stands in theirs. -/
theorem survey_loses_behind_class :
    ((sites methodBehindClass).filter (Site.standsIn "Order")).flatMap (fun x =>
        x.methods.map (·.name) ++ x.fields.map (·.name)) = ["total", "amount"] ∧
      (Groups.get "Order" (survey methodBehindClass).methods).length = 0 ∧
      (Groups.get "Order" (survey methodBehindClass).fields).length = 0 := by
  decide +kernel

theorem flatMap_filter_eq_iff {β : Type} {p q : β → Bool} {own : β → List α} {xs : List β} :
    (xs.filter p).flatMap own = (xs.filter fun x => p x && !q x).flatMap own ↔ ∀ x ∈ xs, p x → q x →
    own x = [] := by
  have hle : ∀ xs : List β, ((xs.filter fun x => p x && !q x).flatMap own).length ≤
      ((xs.filter p).flatMap own).length :=
    fun xs => ((monotone_filter_right xs fun x hx =>
    (Bool.and_eq_true_iff.mp hx).1).flatMap own).length_le
  induction xs with
  | nil => simp
  | cons x xs ih =>
    refine Iff.trans ?_ (forall_mem_cons.trans (and_congr_right' ih.symm)).symm
    by_cases hp : p x
    · by_cases hq : q x
      · -- what is left out is nothing, since the rest does not get longer
        have hrest := hle xs
        simp only [filter_cons, hp, hq, if_true, Bool.not_true, Bool.and_false, Bool.false_eq_true,
          if_false, flatMap_cons, true_implies]
        constructor
        · intro heq
          have hlength := congrArg length heq
          rw [length_append] at hlength
          have hown : own x = [] := eq_nil_of_length_eq_zero (by omega)
          rw [hown, nil_append] at heq
          exact ⟨hown, heq⟩
        · rintro ⟨hown, heq⟩
          rw [hown, heq, nil_append]
      · simp [hp, hq]
    · simp [hp]

/-- **All that is listed under a class stands outside functions exactly if nothing local is met**
    while the class is in mind.  In any case it stands in the class, if maybe inside a function of
    it. -/
theorem survey_local_iff (body : List Stmt) (c : String) :
    (Groups.get c (survey body).methods
        = ((sites body).filter fun x => x.inMind == some c && !x.isLocal).flatMap Site.methods
      ↔ ∀ x ∈ sites body, x.inMind = some c → x.isLocal = true → x.methods = []) ∧
    (Groups.get c (survey body).fields
        = ((sites body).filter fun x => x.inMind == some c && !x.isLocal).flatMap Site.fields
      ↔ ∀ x ∈ sites body, x.inMind = some c → x.isLocal = true → x.fields = []) ∧
    (∀ m ∈ Groups.get c (survey body).methods,
      ∃ x ∈ sites body, m ∈ x.methods ∧ innermostClass x.scopes = some c) ∧
    ∀ f ∈ Groups.get c (survey body).fields,
      ∃ x ∈ sites body, f ∈ x.fields ∧ innermostClass x.scopes = some c := by
  -- a class in mind is the innermost one
  have hstands : ∀ x ∈ sitesUnder body c, x ∈ sites body ∧ innermostClass x.scopes = some c := by
    intro x hx
    obtain ⟨hsite, hmind⟩ := List.mem_filter.mp hx
    refine ⟨hsite, ?_⟩
    rw [Site.inMind, classInMind] at hmind
    split at hmind
    · cases hmind
    · exact beq_iff_eq.mp hmind
  rw [get_methods_survey, get_fields_survey]
  refine ⟨?_, ?_, fun m hm => ?_, fun f hf => ?_⟩
  · exact flatMap_filter_eq_iff.trans (by simp only [beq_iff_eq])
  · exact flatMap_filter_eq_iff.trans (by simp only [beq_iff_eq])
  · obtain ⟨x, hx, hm⟩ := List.mem_flatMap.mp hm
    exact ⟨x, (hstands x hx).1, hm, (hstands x hx).2⟩
  · obtain ⟨x, hx, hf⟩ := List.mem_flatMap.mp hf
    exact ⟨x, (hstands x hx).1, hf, (hstands x hx).2⟩

/-- A method with a helper and a variable of its own. -/
def helperInMethod : List Stmt :=
  [.classDef 1 "Order" [] [] [.functionDef 2 "total" [] [
    .functionDef 3 "helper" [] [.simple 4],
    .assign 5 [.name 5 "amount"] (.call 5 (.attribute 5 (.name 5 "fields") "Float") [] [])]]]

/-- **What is local to a method is listed under its class.** -/
theorem survey_lists_local : ((sites helperInMethod).filter Site.isLocal).flatMap (fun x =>
        x.methods.map (·.name) ++ x.fields.map (·.name)) = ["helper", "amount"] ∧
      (Groups.get "Order" (survey helperInMethod).methods).map (·.name) = ["total", "helper"] ∧
      (Groups.get "Order" (survey helperInMethod).fields).map (·.name) = ["amount"] := by
  decide +kernel

end AddonAudit.Model
