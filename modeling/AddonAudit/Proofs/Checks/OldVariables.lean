/-
  AddonAudit.Proofs.Checks.OldVariables — uses of old variables are whole words.

  A search goes through an expression from left to right and takes the first old variable that fits
  between two word boundaries.  Some of these variables are the start of others.  What is found are
  the longest runs of word characters that are old variables.  The attributes that hold expressions
  are found on all elements that carry them, in document order, so that this says what is told of a
  file.
-/
import AddonAudit.Proofs.Checks.Names
import AddonAudit.Proofs.Workspace.Path
import Mathlib.Data.List.TakeWhile

namespace AddonAudit.Xml

open List

open Text (isWord splitWhere)

/-! ## §1. Runs of word characters. -/

/-- The longest runs of word characters, in order. -/
def wordRuns (cs : List Char) : List String :=
  ((splitWhere (fun c => !isWord c) cs).filter (!·.isEmpty)).map String.ofList

/-- The runs that are old variables. -/
def oldRuns (cs : List Char) : List String := (wordRuns cs).filter oldVariables.contains

theorem oldRuns_append {c : Char} (hc : isWord c = false) (run rest : List Char) :
    oldRuns (run ++ c :: rest) = oldRuns run ++ oldRuns rest := by
  unfold oldRuns wordRuns
  rw [Text.splitWhere_append (by simp [hc]), filter_append, map_append, filter_append]

theorem oldRuns_gap {c : Char} (hc : isWord c = false) (rest : List Char) :
    oldRuns (c :: rest) = oldRuns rest :=
  oldRuns_append hc [] rest

/-- The run at the front, if there is one, comes before the others. -/
theorem oldRuns_front (cs : List Char) : oldRuns cs
    = [String.ofList (cs.takeWhile isWord)].filter oldVariables.contains ++
    oldRuns (cs.dropWhile isWord) := by
  have hrun : oldRuns (cs.takeWhile isWord) =
      [String.ofList (cs.takeWhile isWord)].filter oldVariables.contains := by
    rw [oldRuns, wordRuns, Text.splitWhere_of_none (by simpa using fun c => mem_takeWhile_imp)]
    cases cs.takeWhile isWord with
    | nil => decide
    | cons c run => rfl
  nth_rewrite 1 [← takeWhile_append_dropWhile (p := isWord) (l := cs)]
  cases hdrop : cs.dropWhile isWord with
  | nil => rw [append_nil, hrun, show oldRuns [] = [] from rfl, append_nil]
  | cons c rest =>
    have hc : isWord c = false := by simpa [hdrop] using head?_dropWhile_not isWord cs
    rw [oldRuns_append hc, hrun, oldRuns_gap hc]

/-! ## §2. The search. -/

theorem oldVariables_words : ∀ word ∈ oldVariables, word ≠ "" ∧ ∀ c ∈ word.toList, isWord c := by
  have hall : oldVariables.all (fun word => word != "" && word.toList.all isWord) = true := by
    decide +kernel
  intro word hword
  simpa using all_eq_true.mp hall word hword

/-- **A text starts with a word between boundaries exactly if the word is the run at its front.** -/
theorem startsWithWord_iff {word : String} (hword : ∀ c ∈ word.toList, isWord c) (cs : List Char) :
    startsWithWord cs word ↔ word.toList = cs.takeWhile isWord := by
  unfold startsWithWord
  rw [Bool.and_eq_true, isPrefixOf_iff_prefix, Bool.not_eq_true', ← String.length_toList]
  constructor
  · rintro ⟨⟨after, rfl⟩, hend⟩
    rw [takeWhile_append_of_pos hword]
    cases after with
    | nil => simp
    | cons c after => simpa using hend
  · intro h
    have hcut := takeWhile_append_dropWhile (p := isWord) (l := cs)
    have hend := head?_dropWhile_not isWord cs
    rw [← h] at hcut
    rw [← hcut, drop_left]
    refine ⟨prefix_append _ _, ?_⟩
    cases hdrop : cs.dropWhile isWord with
    | nil => rfl
    | cons c rest => simpa [hdrop] using hend

/-- Where the search may start a use, it finds the run at the front if this is an old variable. -/
theorem find?_oldVariables (cs : List Char) : oldVariables.find? (startsWithWord cs)
    = ([String.ofList (cs.takeWhile isWord)].filter oldVariables.contains).head? := by
  have hfits {word : String} (hword : word ∈ oldVariables) : startsWithWord cs word ↔
      word = String.ofList (cs.takeWhile isWord) := by
    rw [startsWithWord_iff (oldVariables_words word hword).2, ← String.toList_inj,
      String.toList_ofList]
  by_cases hmem : String.ofList (cs.takeWhile isWord) ∈ oldVariables
  · rw [filter_cons_of_pos (contains_iff_mem.mpr hmem), head?_cons]
    cases hfind : oldVariables.find? (startsWithWord cs) with
    | none => exact absurd ((hfits hmem).mpr rfl) (find?_eq_none.mp hfind _ hmem)
    | some word => rw [(hfits (mem_of_find?_eq_some hfind)).mp (find?_some hfind)]
  · rw [filter_cons_of_neg (by simpa using hmem)]
    exact find?_eq_none.mpr fun word hword hstarts => hmem ((hfits hword).mp hstarts ▸ hword)

/-- **What is found are the runs of word characters that are old variables.**  Inside a run, also
    inside one of which characters still have to be skipped, the search goes on behind the run. -/
theorem oldVariablesFrom_eq (cs : List Char) :
    (∀ skip ≤ (cs.takeWhile isWord).length, oldVariablesFrom skip true cs =
    oldRuns (cs.dropWhile isWord)) ∧
      oldVariablesFrom 0 false cs = oldRuns cs := by
  induction cs with
  | nil => exact ⟨fun _ _ => rfl, rfl⟩
  | cons c cs ih =>
    -- inside a word the rest of it is passed over, whatever is still to be skipped
    obtain ⟨hinside, houtside⟩ := ih
    by_cases hc : isWord c
    · constructor
      · intro skip hskip
        rw [dropWhile_cons_of_pos hc]
        rw [takeWhile_cons_of_pos hc, length_cons] at hskip
        cases skip with
        | zero => rw [oldVariablesFrom, if_pos rfl, hc, hinside 0 (Nat.zero_le _)]
        | succ skip => rw [oldVariablesFrom, hc, hinside skip (by omega)]
      · rw [oldVariablesFrom, if_neg Bool.false_ne_true, find?_oldVariables,
          oldRuns_front (c :: cs), hc, takeWhile_cons_of_pos hc, dropWhile_cons_of_pos hc]
        by_cases hmem : oldVariables.contains (String.ofList (c :: cs.takeWhile isWord))
        · rw [filter_cons_of_pos hmem]
          have hskip : (String.ofList (c :: cs.takeWhile isWord)).length - 1 =
              (cs.takeWhile isWord).length := by
            rw [String.length_ofList, length_cons, Nat.add_sub_cancel]
          simp only [filter_nil, head?_cons, hskip, hinside _ (Nat.le_refl _), cons_append,
            nil_append]
        · rw [filter_cons_of_neg hmem]
          exact hinside 0 (Nat.zero_le _)
    · have hc' : isWord c = false := by simpa using hc
      have hnone : oldVariables.find? (startsWithWord (c :: cs)) = none := by
        rw [find?_oldVariables, takeWhile_cons_of_neg hc]
        decide
      have hgap : ∀ inWord, oldVariablesFrom 0 inWord (c :: cs) = oldRuns (c :: cs) := by
        intro inWord
        rw [oldVariablesFrom, hnone, ite_self, hc', oldRuns_gap hc', ← houtside]
      refine ⟨fun skip hskip => ?_, hgap false⟩
      rw [takeWhile_cons_of_neg hc] at hskip
      rw [dropWhile_cons_of_neg hc, Nat.le_zero.mp hskip, hgap]

/-! ## §3. Attributes in document order. -/

mutual
/-- The elements of a node that carry an attribute, in document order: first the element itself,
    then what is inside it.  Each is given by its line and the value of the attribute. -/
def Node.carriers (attr : String) : Node → List (Nat × String)
  | .element _ line _ attributes children =>
    ((attributes.find? (·.1 = ⟨none, attr⟩)).map fun a => (line, a.2)).toList ++
      Node.carriersAll attr children
  | _ => []

/-- The elements of several nodes that carry an attribute. -/
def Node.carriersAll (attr : String) : List Node → List (Nat × String)
  | [] => []
  | n :: ns => n.carriers attr ++ Node.carriersAll attr ns
end

/-- The elements of a document that carry an attribute; a document that cannot be read has none. -/
def Document.carriers (d : Document) (attr : String) : List (Nat × String) :=
  match d.root with
  | .ok root =>
    Node.carriers attr (.element root.place root.line root.name root.attributes root.children)
  | .error _ => []

theorem get?_eq_find? (e : Element) (attr : String) :
    e.get? attr = (e.attributes.find? (·.1 = ⟨none, attr⟩)).map (·.2) := by
  unfold Element.get?
  congr 2
  funext a
  rcases a with ⟨⟨space, label⟩, value⟩
  cases space with
  | none => simpa using beq_eq_decide label attr
  | some name => simp

/-- What is looked for in an element: its line, with the value of an attribute. -/
def lineAndValue? (attr : String) (e : Element) :
    Option (Nat × String) := (e.get? attr).map fun v => (e.line, v)

mutual
theorem carriers_eq (attr : String) (parent : Option Element) : ∀ n : Node,
    n.carriers attr = (Node.inside parent n).filterMap fun p => lineAndValue? attr p.element
  | .element place line name attributes children => by
    rw [Node.carriers, Node.inside, filterMap_cons, carriersAll_eq attr _ children, lineAndValue?,
      get?_eq_find?]
    cases attributes.find? (·.1 = ⟨none, attr⟩) <;> rfl
  | .text s => by simp only [Node.carriers, Node.inside, filterMap_nil]
  | .comment => by simp only [Node.carriers, Node.inside, filterMap_nil]
  | .instruction => by simp only [Node.carriers, Node.inside, filterMap_nil]

theorem carriersAll_eq (attr : String) (parent : Option Element) : ∀ ns : List Node,
    Node.carriersAll attr ns = (Node.insideAll parent ns).filterMap fun p =>
    lineAndValue? attr p.element
  | [] => by rw [Node.carriersAll, Node.insideAll, filterMap_nil]
  | n :: ns => by
    rw [Node.carriersAll, Node.insideAll, filterMap_append, carriers_eq attr parent n,
      carriersAll_eq attr parent ns]
end

/-- **The search for an attribute finds its carriers**, all of them and in document order. -/
theorem map_having (d : Document) (attr : String) :
    (d.having attr).map (fun p => (p.1.line, p.2)) = d.carriers attr := by
  have hfind (es : List Element) : (es.filterMap fun e => (e.get? attr).map fun v => (e, v)).map
      (fun p => (p.1.line, p.2)) = es.filterMap (lineAndValue? attr) := by
    rw [map_filterMap]
    refine filterMap_congr fun e _ => ?_
    rw [Option.map_map]
    rfl
  unfold Document.having Document.elements Document.carriers Document.root?
  cases d.root with
  | error f => rfl
  | ok root =>
    show ((root.selfAndDescendants).filterMap _).map _ = Node.carriers attr _
    rw [hfind, carriers_eq attr none, Node.inside, Element.selfAndDescendants, Element.descendants,
      filterMap_cons, filterMap_cons, filterMap_map]
    rfl

/-! ## §4. The messages. -/

/-- What is said of the uses of old variables in a document: attribute by attribute, carrier by
    carrier, and for each run of word characters that is an old variable. -/
def usesTold (d : Document) : List String :=
  ["context", "domain", "attrs", "options", "filter_domain", "default", "eval"].flatMap fun attr =>
    (d.carriers attr).flatMap fun (line, value) =>
      ((wordRuns value.toList).filter ["active_id", "active_ids", "active_model"].contains).map
        fun word =>
        d.file.path ++ ":" ++ toString line ++ " " ++
          ("Deprecated use of \"" ++ word ++ "\" in " ++ attr ++ "=\"" ++ Text.take value 50 ++
          "...\"")

/-- **Uses of old variables are told of as whole words.**  For each attribute in turn and each
    element that carries it in document order, there is one finding for each longest run of word
    characters in the value that is an old variable; and files of views are reported with these
    messages, document by document. -/
theorem oldVariablesIn_words :
    (∀ d, oldVariablesIn d
      = (usesTold d).map fun message => ⟨"xml_deprecated_active_id_usage", message⟩) ∧
    ∀ w files fs, checkViewFiles w files = .ok fs → ∃ ds, files.mapM (readDocument w) = .ok ds ∧
      Groups.get "xml_deprecated_active_id_usage" fs = ds.flatMap usesTold := by
  have hfindings (d : Document) :
      oldVariablesIn d = (usesTold d).map fun message => ⟨"xml_deprecated_active_id_usage",
      message⟩ := by
    unfold oldVariablesIn usesTold oldVariableUses
    rw [map_flatMap]
    refine congrArg (flatMap · expressionAttributes) (funext fun attr => ?_)
    rw [← map_having, flatMap_map, map_flatMap]
    refine congrArg (flatMap · (d.having attr)) (funext fun p => ?_)
    obtain ⟨e, value⟩ := p
    dsimp only
    rw [(oldVariablesFrom_eq _).2, map_map]
    rfl
  refine ⟨hfindings, fun w files fs h => ?_⟩
  obtain ⟨ds, priorities, ids, hds, hpriorities, hids, rfl⟩ := checkViewFiles_parts h
  refine ⟨ds, hds, ?_⟩
  rw [Findings.get_ofList]
  simp only [filter_append]
  rw [(Named.flatMap named_alertsWithoutRole ds).filter_of_not_mem (by decide),
    (Named.flatMap named_oldVariablesIn ds).filter_self,
    (Named.flatten_of_mapM (fun _ _ => named_samePriorities) hpriorities).filter_of_not_mem
      (by decide),
    (Named.flatten_of_mapM (fun _ _ => named_hardcodedIds) hids).filter_of_not_mem (by decide),
    (Named.flatMap named_rawUses ds).filter_of_not_mem (by decide)]
  simp only [nil_append, append_nil, map_flatMap, hfindings, map_map]
  exact congrArg (flatMap · ds) (funext fun d => map_id' _)

/-- A file of views in which old variables stand beside longer names, in an element and in one
    inside another. -/
def withOldVariables : World where
  root := .folder [("views", .file ("<odoo>\n<field context='active_id or active_ids_count'/>\n" ++
    "<field domain='default_active_id'><a context='active_model, active_ids' eval='active_id'/></field></odoo>").toUTF8)]

theorem oldVariablesIn_words_nested :
    ∃ fs, checkViewFiles withOldVariables [⟨"/views", "views", "data"⟩] = .ok fs ∧
    Groups.get "xml_deprecated_active_id_usage" fs = [
      "/views:2 Deprecated use of \"active_id\" in context=\"active_id or active_ids_count...\"",
      "/views:3 Deprecated use of \"active_model\" in context=\"active_model, active_ids...\"",
      "/views:3 Deprecated use of \"active_ids\" in context=\"active_model, active_ids...\"",
      "/views:3 Deprecated use of \"active_id\" in eval=\"active_id...\""] := by
  obtain ⟨fs, hfs, -⟩ : ∃ fs, checkViewFiles withOldVariables [⟨"/views", "views",
      "data"⟩] = .ok fs ∧ () = () :=
    Traversal.ok_of_toOption_map (by decide +kernel)
  obtain ⟨ds, hds, hget⟩ := oldVariablesIn_words.2 _ _ _ hfs
  refine ⟨fs, hfs, hget.trans (Option.some.inj ?_)⟩
  show (Except.ok ds : Except Fault (List Document)).toOption.map (·.flatMap usesTold) = _
  rw [← hds]
  decide +kernel

end AddonAudit.Xml
