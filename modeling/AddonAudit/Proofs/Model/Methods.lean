/-
  AddonAudit.Proofs.Model.Methods — the methods that the sources of an addon declare.

  A survey files every method under a class that it lists.  So whoever goes through the classes
  meets all methods, and each of them once.  A file may be read several times; its declarations are
  recorded when it is read first, and reading it again changes nothing.
-/
import AddonAudit.Proofs.Findings
import AddonAudit.Proofs.Model.Declarations

namespace AddonAudit

open List

/-! ## §1. Groups by key. -/

namespace Groups

variable {κ α : Type} [BEq κ] [LawfulBEq κ]

theorem get_cons_of_ne {k key : κ} (h : key ≠ k) (vs : List α) (g : Groups κ α) :
    get k ((key, vs) :: g) = get k g :=
  if_neg fun heq => h (eq_of_beq heq)

/-- **Going through the keys meets all values**, each as often as it is filed. -/
theorem flatMap_get_perm {g : Groups κ α} (hg : (g.map Prod.fst).Nodup) {keys : List κ}
    (hkeys : keys.Nodup) (h : ∀ p ∈ g, p.1 ∈ keys) :
    (keys.flatMap (get · g)).Perm (g.flatMap (·.2)) := by
  induction g generalizing keys with
  | nil =>
    have hnone : keys.flatMap (get · ([] : Groups κ α)) = [] := flatMap_eq_nil_iff.mpr fun _ _ =>
      rfl
    rw [hnone]
    exact .nil
  | cons p g ih =>
    obtain ⟨key, vs⟩ := p
    rw [map_cons, nodup_cons] at hg
    have hkey : key ∈ keys := h _ mem_cons_self
    -- the first key comes out of the list; for all others its group makes no difference
    have hothers : (keys.erase key).flatMap (get · ((key, vs) :: g)) =
        (keys.erase key).flatMap (get · g) := by
      refine flatMap_congr fun k hk => get_cons_of_ne ?_ vs g
      rintro rfl
      exact hkeys.not_mem_erase hk
    have hrest : ∀ p ∈ g, p.1 ∈ keys.erase key := by
      intro p hp
      refine (mem_erase_of_ne fun heq => ?_).mpr (h p (mem_cons_of_mem _ hp))
      exact hg.1 (mem_map.mpr ⟨p, hp, heq⟩)
    have hfirst : get key ((key, vs) :: g) = vs := if_pos (beq_self_eq_true key)
    refine ((perm_cons_erase hkey).flatMap_right _).trans ?_
    rw [flatMap_cons, flatMap_cons, hothers, hfirst]
    exact (ih hg.2 (hkeys.erase key) hrest).append_left vs

end Groups

namespace Model

open Source (Expr Stmt)

/-! ## §2. Methods under classes. -/

/-- Methods that are filed under classes of a survey, those of one class together. -/
structure Survey.Filed (s : Survey) : Prop where
  nodup : (s.methods.map Prod.fst).Nodup
  listed : ∀ p ∈ s.methods, p.1 ∈ s.models.map Prod.fst

/-- The invariant of a walk: methods are filed, and the current class is listed. -/
structure Walk.Filed (w : Walk) : Prop where
  survey : w.survey.Filed
  current : ∀ c, w.current = some c → c ∈ w.survey.models.map Prod.fst

theorem mem_keys_setModel {n name : String} {m : ModelInfo} {models : List (String × ModelInfo)} :
    n ∈ (setModel name m models).map Prod.fst ↔ n = name ∨ n ∈ models.map Prod.fst := by
  induction models with
  | nil => simp [setModel]
  | cons p models ih =>
    unfold setModel
    split
    next hp =>
      rw [map_cons, map_cons, mem_cons, ← eq_of_beq hp]
      simp
    next =>
      rw [map_cons, map_cons, mem_cons, mem_cons, ih]
      exact or_left_comm

theorem Walk.Filed.addMethod {w : Walk} (h : w.Filed) (m : MethodInfo) : (w.addMethod m).Filed := by
  unfold Walk.addMethod
  split
  next c hc =>
    refine ⟨⟨Groups.nodup_append h.survey.nodup, fun p hp => ?_⟩, h.current⟩
    rcases Groups.mem_append hp with ⟨hkey, -⟩ | hp
    · rw [hkey]
      exact h.current c hc
    · exact h.survey.listed p hp
  next => exact h

theorem Walk.Filed.addFields {w : Walk} (h : w.Filed) (fs : List FieldInfo) :
    (w.addFields fs).Filed := by
  unfold Walk.addFields
  split
  · exact ⟨⟨h.survey.nodup, h.survey.listed⟩, h.current⟩
  · exact h

theorem Walk.Filed.enter {w : Walk} (h : w.Filed) (name : String) (m : ModelInfo) :
    (w.enter name m).Filed where
  survey := ⟨h.survey.nodup, fun p hp => mem_keys_setModel.mpr (.inr (h.survey.listed p hp))⟩
  current := by
    rintro c ⟨⟩
    exact mem_keys_setModel.mpr (.inl rfl)

mutual
/-- A statement that is walked files methods under the class that it stands in. -/
theorem filed_walkStmt (w : Walk) (h : w.Filed) : ∀ s : Stmt, (walkStmt w s).Filed
  | .classDef line name bases _ body => by
    unfold walkStmt
    exact ⟨(filed_walkBody _ (h.enter name (modelOf line name bases body)) body).survey, by simp⟩
  | .functionDef line name decorators body => by
    unfold walkStmt
    exact filed_walkBody _ (h.addMethod (methodOf line name decorators body)) body
  | .assign line targets value => by
    unfold walkStmt
    exact h.addFields (fieldsOf line targets value)
  | .compound _ body => by
    unfold walkStmt
    exact filed_walkBody w h body
  | .expr _ _ => by
    unfold walkStmt
    exact h
  | .simple _ => by
    unfold walkStmt
    exact h

theorem filed_walkBody (w : Walk) (h : w.Filed) : ∀ body : List Stmt, (walkBody w body).Filed
  | [] => by
    unfold walkBody
    exact h
  | s :: rest => by
    unfold walkBody
    exact filed_walkBody _ (filed_walkStmt w h s) rest
end

theorem filed_empty : Survey.Filed {} := ⟨nodup_nil, fun _ h => by cases h⟩

/-- **A survey files every method under a class that it lists.** -/
theorem filed_survey (body : List Stmt) : (survey body).Filed :=
  (filed_walkBody {} ⟨filed_empty, by simp⟩ body).survey

variable {file : String} {r : Reading} {w : World} {ds : List Declaration} {seen : List String}

theorem filed_of_readSource (h : readSource w file = .ok r) : r.survey.Filed := by
  obtain ⟨text, -, h⟩ := Traversal.bind_ok_iff.mp h
  split at h
  · cases h
    exact filed_survey _
  · cases h
    exact filed_empty

/-! ## §3. Files that are read again. -/

/-- A file that is read, maybe again. -/
structure Visit where
  file : String
  reading : Reading
  /-- Whether the file has been read before. -/
  again : Bool

/-- Readings in order, after some files have been read. -/
def visits (seen : List String) : List (String × Reading) → List Visit
  | [] => []
  | (file, r) :: rest => ⟨file, r, seen.contains file⟩ :: visits (file :: seen) rest

/-- What a visit adds to the declarations. -/
def Visit.declarations (v : Visit) : List Declaration :=
  if v.again then [] else declarationsOf v.file v.reading.survey

theorem setDeclaration_of_mem {d : Declaration} (hagree : ∀ x ∈ ds, x.SameClass d → x = d)
    (h : d ∈ ds) : setDeclaration d ds = ds := by
  induction ds with
  | nil => cases h
  | cons x ds ih =>
    unfold setDeclaration
    split
    next hsame =>
      rw [Bool.and_eq_true] at hsame
      rw [hagree x mem_cons_self ⟨eq_of_beq hsame.1, eq_of_beq hsame.2⟩]
    next hother =>
      rcases mem_cons.mp h with rfl | h
      · simp at hother
      · rw [ih (fun y hy => hagree y (mem_cons_of_mem _ hy)) h]

theorem setDeclaration_of_new {d : Declaration} (h : ∀ x ∈ ds, ¬ x.SameClass d) :
    setDeclaration d ds = ds ++ [d] := by
  induction ds with
  | nil => rfl
  | cons x ds ih =>
    unfold setDeclaration
    split
    next hsame =>
      rw [Bool.and_eq_true] at hsame
      exact absurd ⟨eq_of_beq hsame.1, eq_of_beq hsame.2⟩ (h x mem_cons_self)
    next =>
      rw [ih fun y hy => h y (mem_cons_of_mem _ hy)]
      rfl

/-- Declarations that are recorded already are recorded once more without effect. -/
theorem foldl_setDeclaration_of_mem (hagree : ∀ x ∈ ds, ∀ y ∈ ds, x.SameClass y → x = y)
    {xs : List Declaration} (h : ∀ x ∈ xs, x ∈ ds) :
    xs.foldl (fun ds d => setDeclaration d ds) ds = ds := by
  induction xs with
  | nil => rfl
  | cons d xs ih =>
    have hd : d ∈ ds := h d mem_cons_self
    rw [foldl_cons, setDeclaration_of_mem (fun x hx => hagree x hx d hd) hd]
    exact ih fun x hx => h x (mem_cons_of_mem _ hx)

/-- Declarations of other classes go to the end. -/
theorem foldl_setDeclaration_of_new {xs : List Declaration}
    (hxs : xs.Pairwise fun x y => ¬ x.SameClass y) : ∀ ds :
    List Declaration, (∀ x ∈ ds, ∀ y ∈ xs, ¬ x.SameClass y) →
      xs.foldl (fun ds d => setDeclaration d ds) ds = ds ++ xs := by
  induction xs with
  | nil => exact fun ds _ => (append_nil ds).symm
  | cons d xs ih =>
    intro ds h
    rw [pairwise_cons] at hxs
    rw [foldl_cons, setDeclaration_of_new fun x hx => h x hx d mem_cons_self, ih hxs.2]
    · rw [append_assoc]
      rfl
    · intro x hx y hy
      rcases mem_append.mp hx with hx | hx
      · exact h x hx y (mem_cons_of_mem _ hy)
      · rw [mem_singleton.mp hx]
        exact hxs.1 y hy

theorem pairwise_declarationsOf {s : Survey} (hs : WellNamed s.models) :
    (declarationsOf file s).Pairwise fun x y => ¬ x.SameClass y := by
  refine pairwise_map.mpr ?_
  refine Pairwise.imp_of_mem ?_ (pairwise_map.mp hs.nodup)
  rintro p q hp hq hne ⟨-, hname⟩
  exact hne ((hs.named p hp).symm.trans (hname.trans (hs.named q hq)))

/-- Declarations that are all those of some files. -/
structure Recorded (w : World) (seen : List String) (ds : List Declaration) : Prop where
  files : ∀ d ∈ ds, d.file ∈ seen
  all : ∀ file ∈ seen, ∀ r, readSource w file = .ok r → ∀ d ∈ declarationsOf file r.survey, d ∈ ds
  agree : ∀ x ∈ ds, ∀ y ∈ ds, x.SameClass y → x = y

theorem recorded_nil (w : World) : Recorded w [] [] := ⟨by simp, by simp, by simp⟩

theorem Recorded.again (h : Recorded w seen ds) (hseen : file ∈ seen) :
    Recorded w (file :: seen) ds where
  files d hd := mem_cons_of_mem _ (h.files d hd)
  all other hother := by
    rcases mem_cons.mp hother with rfl | hother
    · exact h.all _ hseen
    · exact h.all other hother
  agree := h.agree

/-- What is recorded has no class of a file that is new. -/
theorem Recorded.not_sameClass (h : Recorded w seen ds) (hseen : file ∉ seen) {s : Survey} :
    ∀ x ∈ ds, ∀ y ∈ declarationsOf file s, ¬ x.SameClass y := by
  rintro x hx y hy ⟨hfile, -⟩
  rw [file_of_mem_declarationsOf hy] at hfile
  exact hseen (hfile ▸ h.files x hx)

theorem Recorded.append (h : Recorded w seen ds) (hr : readSource w file = .ok r)
    (hseen : file ∉ seen) : Recorded w (file :: seen) (ds ++ declarationsOf file r.survey) where
  files d hd := by
    rcases mem_append.mp hd with hd | hd
    · exact mem_cons_of_mem _ (h.files d hd)
    · rw [file_of_mem_declarationsOf hd]
      exact mem_cons_self
  all other hother r' hr' d hd := by
    rcases mem_cons.mp hother with rfl | hother
    · -- reading a file once more gives the same
      cases hr.symm.trans hr'
      exact mem_append_right _ hd
    · exact mem_append_left _ (h.all other hother r' hr' d hd)
  agree x hx y hy hsame := by
    rcases mem_append.mp hx with hx | hx <;> rcases mem_append.mp hy with hy | hy
    · exact h.agree x hx y hy hsame
    · exact absurd hsame (h.not_sameClass hseen x hx y hy)
    · exact absurd ⟨hsame.1.symm, hsame.2.symm⟩ (h.not_sameClass hseen y hy x hx)
    · exact eq_of_mem_declarationsOf (wellNamed_of_readSource hr) hx hy hsame.2

/-- One more reading adds the declarations of a file that is new, and none of a file that was
    read. -/
theorem Recorded.visit (h : Recorded w seen ds) (hr : readSource w file = .ok r) :
    (declarationsOf file r.survey).foldl (fun ds d => setDeclaration d ds) ds
        = ds ++ Visit.declarations ⟨file, r, seen.contains file⟩ ∧
      Recorded w (file :: seen) (ds ++ Visit.declarations ⟨file, r, seen.contains file⟩) := by
  unfold Visit.declarations
  by_cases hseen : file ∈ seen
  · rw [if_pos (contains_iff_mem.mpr hseen), append_nil]
    exact ⟨foldl_setDeclaration_of_mem h.agree (h.all file hseen r hr), h.again hseen⟩
  · rw [if_neg fun hcontains => hseen (contains_iff_mem.mp hcontains)]
    refine ⟨?_, h.append hr hseen⟩
    exact foldl_setDeclaration_of_new (pairwise_declarationsOf (wellNamed_of_readSource hr)) ds
      (h.not_sameClass hseen)

/-- **The declarations of files that were read are those of each file once**, in the order in which
    the files were read first. -/
theorem declarations_eq {files : List String} {readings : List (String × Reading)}
    (h : readSources w files = .ok readings) :
    declarations readings = (visits [] readings).flatMap Visit.declarations := by
  have hread : ∀ p ∈ readings, readSource w p.1 = .ok p.2 := fun p hp => readSource_of_mem h hp
  -- the induction is over the readings, with what is recorded before each of them
  have hrun : ∀ (rs : List (String × Reading)) (seen : List String) (ds : List Declaration),
      (∀ p ∈ rs, readSource w p.1 = .ok p.2) → Recorded w seen ds →
      (rs.flatMap fun p => declarationsOf p.1 p.2.survey).foldl (fun ds d => setDeclaration d ds) ds
        = ds ++ (visits seen rs).flatMap Visit.declarations := by
    intro rs
    induction rs with
    | nil => exact fun seen ds _ _ => (append_nil ds).symm
    | cons p rs ih =>
      intro seen ds hrs hrecorded
      obtain ⟨hfold, hnext⟩ := hrecorded.visit (hrs p mem_cons_self)
      rw [flatMap_cons, foldl_append, hfold,
        ih _ _ (fun q hq => hrs q (mem_cons_of_mem _ hq)) hnext, visits, flatMap_cons,
        append_assoc]
  exact hrun readings [] [] hread (recorded_nil w)

end Model

end AddonAudit
