/-
  AddonAudit.Proofs.Xml.Tree — the elements of a document, their places and their parents.

  Places are given in document order once a document is read, so that no two of its elements share
  one.  What is inside an element is inside all that it stands in, in the same order; so a place
  leads to one element, and from there to one parent.
-/
import AddonAudit.Xml.Reader
import Mathlib.Data.List.Nodup

namespace AddonAudit.Xml

open List

/-! ## §1. Places. -/

/-- The places of the elements of some nodes, in document order. -/
def placesOf (ns : List Node) : List Nat := (Node.insideAll none ns).map (·.element.place)

theorem insideAll_eq (parent : Option Element) (ns : List Node) :
    Node.insideAll parent ns = ns.flatMap (Node.inside parent) := by
  induction ns with
  | nil => rfl
  | cons n ns ih => rw [Node.insideAll, ih, flatMap_cons]

/-- Places do not depend on what the nodes stand in. -/
theorem map_place_insideAll (parent : Option Element) (ns : List Node) :
    (Node.insideAll parent ns).map (·.element.place) = placesOf ns := by
  have hnode : ∀ n, (Node.inside parent n).map (·.element.place) =
      (Node.inside none n).map (·.element.place) := by
    intro n
    cases n <;> simp only [Node.inside, map_cons, map_nil]
  unfold placesOf
  rw [insideAll_eq, insideAll_eq, map_flatMap, map_flatMap]
  simp only [hnode]

theorem placesOf_cons (n : Node) (ns : List Node) :
    placesOf (n :: ns) = placesOf [n] ++ placesOf ns := by
  simp only [placesOf, insideAll_eq, flatMap_cons, flatMap_nil, append_nil, map_append]

theorem placesOf_element (place line : Nat) (name : Name) (attributes : List (Name × String))
    (ns : List Node) :
    placesOf [.element place line name attributes ns] = place :: placesOf ns := by
  simp only [placesOf, Node.insideAll, Node.inside, append_nil, map_cons]
  exact congrArg _ (map_place_insideAll _ ns)

/-- Numbers of which each is given once, from a number on and before another. -/
structure Numbered (b c : Nat) (ps : List Nat) : Prop where
  le : b ≤ c
  nodup : ps.Nodup
  mem : ∀ p ∈ ps, b ≤ p ∧ p < c

namespace Numbered

variable {b c c' : Nat} {ps qs : List Nat}

theorem nil (c : Nat) : Numbered c c [] := ⟨Nat.le_refl c, .nil, fun _ h => nomatch h⟩

theorem cons (h : Numbered (b + 1) c ps) : Numbered b c (b :: ps) where
  le := Nat.le_of_succ_le h.le
  nodup := nodup_cons.mpr ⟨fun hb => Nat.lt_irrefl b (h.mem b hb).1, h.nodup⟩
  mem := forall_mem_cons.mpr ⟨⟨Nat.le_refl b, h.le⟩, fun p hp => ⟨Nat.le_of_succ_le (h.mem p hp).1,
    (h.mem p hp).2⟩⟩

/-- Numbers that are given later are other numbers. -/
theorem append (h : Numbered b c ps) (h' : Numbered c c' qs) : Numbered b c' (ps ++ qs) where
  le := Nat.le_trans h.le h'.le
  nodup := nodup_append.mpr ⟨h.nodup, h'.nodup, fun p hp q hq heq =>
    absurd (h.mem p hp).2 (Nat.not_lt_of_le (heq ▸ (h'.mem q hq).1))⟩
  mem p hp := by
    rcases mem_append.mp hp with hp | hp
    · exact ⟨(h.mem p hp).1, Nat.lt_of_lt_of_le (h.mem p hp).2 h'.le⟩
    · exact ⟨Nat.le_trans h.le (h'.mem p hp).1, (h'.mem p hp).2⟩

end Numbered

mutual
/-- **Places are given once.** -/
theorem numbered_number (start : Nat) : ∀ n : Node,
    Numbered start (n.number start).2 (placesOf [(n.number start).1])
  | .element _ line name attributes children => by
    rw [Node.number]
    dsimp only
    rw [placesOf_element]
    exact (numbered_numberAll (start + 1) children).cons
  | .text _ => Numbered.nil start
  | .comment => Numbered.nil start
  | .instruction => Numbered.nil start

theorem numbered_numberAll (start : Nat) : ∀ ns : List Node,
    Numbered start (Node.numberAll start ns).2 (placesOf (Node.numberAll start ns).1)
  | [] => Numbered.nil start
  | n :: ns => by
    rw [Node.numberAll]
    dsimp only
    rw [placesOf_cons]
    exact (numbered_number start n).append (numbered_numberAll _ ns)
end

/-- Whether places tell the elements of a document apart. -/
def Element.Distinct (root : Element) : Prop := (root.selfAndDescendants.map (·.place)).Nodup

theorem distinct_of_number {n : Node} {root : Element} (h : (n.number 0).1.element? = some root) :
    root.Distinct := by
  have hnodup := (numbered_number 0 n).nodup
  unfold Element.Distinct
  cases hn : (n.number 0).1 with
  | element place line name attributes children =>
    rw [hn] at h hnodup
    cases h
    rw [placesOf_element] at hnodup
    rw [Element.selfAndDescendants, map_cons, Element.descendants, map_map]
    exact (map_place_insideAll _ children).symm ▸ hnodup
  | _ =>
    rw [hn] at h
    cases h

/-- **The elements of a document have places of their own.** -/
theorem distinct_of_read {bytes : ByteArray} {root : Element} (h : read? bytes = some root) :
    root.Distinct := by
  have hbind : ∀ {α β : Type} {m : Reading α} {f : α → Reading β} {s : Scan} {b : β} {s' : Scan},
      (m >>= f) s = some (b, s') → ∃ a t, f a t = some (b, s') := by
    intro α β m f s b s' h
    obtain ⟨⟨a, t⟩, -, h⟩ := Option.bind_eq_some_iff.mp h
    exact ⟨a, t, h⟩
  obtain ⟨cs, -, h⟩ := Option.bind_eq_some_iff.mp h
  obtain ⟨⟨e, s⟩, h, heq⟩ := Option.bind_eq_some_iff.mp h
  cases heq
  -- all that is read around the root element does not matter
  obtain ⟨_, _, h⟩ := hbind h
  obtain ⟨_, _, h⟩ := hbind h
  obtain ⟨_, _, h⟩ := hbind h
  obtain ⟨n, _, h⟩ := hbind h
  obtain ⟨_, _, h⟩ := hbind h
  obtain ⟨_, _, h⟩ := hbind h
  obtain ⟨_, _, h⟩ := hbind h
  obtain ⟨_, _, h⟩ := hbind h
  obtain ⟨_, _, h⟩ := hbind h
  cases hroot : (n.number 0).1.element? with
  | some e =>
    rw [hroot] at h
    cases h
    exact distinct_of_number hroot
  | none =>
    rw [hroot] at h
    cases h

/-! ## §2. Elements and their parents. -/

/-- The elements inside an element are those of its children. -/
theorem descendants_eq (e : Element) :
    e.descendants = e.elements.flatMap Element.selfAndDescendants := by
  obtain ⟨place, line, name, attributes, children⟩ := e
  unfold Element.descendants Element.elements
  dsimp only
  generalize (some _ : Option Element) = parent
  induction children with
  | nil => rfl
  | cons n ns ih =>
    rw [Node.insideAll, map_append, ih]
    cases n with
    | element place line name attributes children =>
      rw [filterMap_cons_some (by rfl), flatMap_cons]
      simp only [Node.inside, map_cons]
      rfl
    | _ => rfl

/-- An element as the child of another. -/
theorem mem_insideAll_of_elements {e c : Element} (h : c ∈ e.elements) :
    ⟨c, some e⟩ ∈ Node.insideAll (some e) e.children := by
  obtain ⟨n, hn, hc⟩ := mem_filterMap.mp h
  rw [insideAll_eq]
  refine mem_flatMap.mpr ⟨n, hn, ?_⟩
  cases n with
  | element place line name attributes children =>
    cases hc
    rw [Node.inside]
    exact mem_cons_self
  | _ => cases hc

mutual
/-- What is inside an element that is inside a node is inside the node, in the same order. -/
theorem sublist_inside {parent : Option Element} {p : Placed} :
    ∀ {n : Node}, p ∈ Node.inside parent n →
    (p :: Node.insideAll (some p.element) p.element.children).Sublist (Node.inside parent n)
  | .element .., hp => by
    rw [Node.inside] at hp ⊢
    rcases mem_cons.mp hp with rfl | hp
    · exact .refl _
    · exact (sublist_insideAll hp).cons _

theorem sublist_insideAll {parent : Option Element} {p : Placed} :
    ∀ {ns : List Node}, p ∈ Node.insideAll parent ns →
    (p :: Node.insideAll (some p.element) p.element.children).Sublist (Node.insideAll parent ns)
  | n :: ns, hp => by
    rw [Node.insideAll] at hp ⊢
    rcases mem_append.mp hp with hp | hp
    · exact (sublist_inside hp).trans (sublist_append_left ..)
    · exact (sublist_insideAll hp).trans (sublist_append_right ..)
end

namespace Element

variable {root e e' c c' : Element}

theorem sublist_placedDescendants (h : e ∈ root.selfAndDescendants) :
    e.placedDescendants.Sublist root.placedDescendants := by
  rcases mem_cons.mp h with rfl | h
  · exact .refl _
  · obtain ⟨p, hp, rfl⟩ := mem_map.mp h
    exact (sublist_cons_self ..).trans (sublist_insideAll hp)

theorem placed_of_child (he : e ∈ root.selfAndDescendants) (hc : c ∈ e.elements) :
    ⟨c, some e⟩ ∈ root.placedDescendants :=
  (sublist_placedDescendants he).subset (mem_insideAll_of_elements hc)

theorem mem_of_child (he : e ∈ root.selfAndDescendants) (hc : c ∈ e.elements) :
    c ∈ root.selfAndDescendants :=
  mem_cons_of_mem _ (mem_map_of_mem (placed_of_child he hc))

theorem Distinct.placed (h : root.Distinct) :
    (root.placedDescendants.map (·.element.place)).Nodup := by
  have htail := (nodup_cons.mp h).2
  rwa [descendants, map_map] at htail

/-- **An element has one parent.** -/
theorem Distinct.parent_unique (h : root.Distinct) (he : e ∈ root.selfAndDescendants)
    (hc : c ∈ e.elements) (he' : e' ∈ root.selfAndDescendants) (hc' : c' ∈ e'.elements)
    (heq : c.place = c'.place) : e = e' ∧ c = c' := by
  have hplaced := inj_on_of_nodup_map h.placed (placed_of_child he hc) (placed_of_child he' hc') heq
  cases hplaced
  exact ⟨rfl, rfl⟩

end Element

end AddonAudit.Xml
