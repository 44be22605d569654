/-
  AddonAudit.Proofs.Options — a flag that stands among the arguments is read.

  Reading marks the arguments and then takes them step by step.  No step loses an option: what is
  taken by place, or as the value of an option, is never an option itself.  A flag is therefore set
  in the end, or it is among the arguments that nothing took, and then there are no values at all.
-/
import AddonAudit.Options
import AddonAudit.Proofs.Traversal

namespace AddonAudit.Options

open List Traversal

/-! ## §1. Values. -/

/-- A flag is set if any value was given for it. -/
theorem Values.isSet_of_mem {vs : Values} {key : String} {v : Value} (h : (key, v) ∈ vs) :
    vs.isSet key := by
  unfold isSet get?
  rw [Option.isSome_map, find?_isSome]
  exact ⟨(key, v), mem_reverse.mpr h, beq_self_eq_true key⟩

/-! ## §2. Marks. -/

section Marks

variable {u : Usage} {name : String} {p : Parameter}

/-- The full name of an option is marked as that option. -/
theorem mark_of_find (hdash : Text.startsWith name "-") (hdivider : name ≠ "--")
    (hfind : u.find? name = some p) : u.mark name = .ok (.option (some ⟨p, name, none⟩)) := by
  unfold Usage.mark
  rw [if_neg (by simpa using hdivider), hdash, Bool.not_true, if_neg Bool.false_ne_true, hfind]

/-- Nothing but the divider is marked as one. -/
theorem eq_of_mark_divider {argument : String} (h : u.mark argument = .ok .divider) :
    argument = "--" := by
  revert h
  fun_cases Usage.mark u argument <;> simp_all

/-- **The full name of an option before the divider is marked as that option.** -/
theorem mem_markAll (hdash : Text.startsWith name "-") (hfind : u.find? name = some p) :
    ∀ {arguments : List String} {items : List (String × Mark)},
      name ∈ arguments.takeWhile (· != "--") → u.markAll arguments = .ok items →
      (name, .option (some ⟨p, name, none⟩)) ∈ items := by
  intro arguments
  induction arguments with
  | nil => intro items hmem _; cases hmem
  | cons a as ih =>
    intro items hmem h
    have ha : (a != "--") := by
      by_contra hnot
      rw [takeWhile_cons_of_neg (by simpa using hnot)] at hmem
      cases hmem
    rw [takeWhile_cons_of_pos (p := (· != "--")) ha] at hmem
    obtain ⟨m, hm, h⟩ := bind_ok_iff.mp h
    -- only the divider itself is marked as one, so that the arguments after `a` are marked in their
    -- turn
    have hrest : ∃ ms, u.markAll as = .ok ms ∧ items = (a, m) :: ms := by
      cases m with
      | divider => exact absurd (eq_of_mark_divider hm) (by simpa using ha)
      | plain =>
        obtain ⟨ms, hms, h⟩ := bind_ok_iff.mp h
        exact ⟨ms, hms, (Except.ok.inj h).symm⟩
      | option hit =>
        obtain ⟨ms, hms, h⟩ := bind_ok_iff.mp h
        exact ⟨ms, hms, (Except.ok.inj h).symm⟩
    obtain ⟨ms, hms, rfl⟩ := hrest
    rcases mem_cons.mp hmem with rfl | hmem
    · rw [mark_of_find hdash (by simpa using ha) hfind] at hm
      cases hm
      exact mem_cons_self
    · exact mem_cons_of_mem _ (ih hmem hms)

end Marks

/-! ## §3. One step. -/

/-- What reading has gathered only grows. -/
structure State.Grows (st st' : State) : Prop where
  values : st.values ⊆ st'.values
  extras : st.extras ⊆ st'.extras

namespace State.Grows

theorem refl (st : State) : Grows st st := ⟨Subset.refl _, Subset.refl _⟩

theorem trans {a b c : State} (h : Grows a b) (h' : Grows b c) : Grows a c :=
  ⟨Subset.trans h.values h'.values, Subset.trans h.extras h'.extras⟩

end State.Grows

section Steps

variable {u : Usage} {st st' : State} {p : Parameter} {items rest rest' : List (String × Mark)}

/-- Giving arguments to a parameter adds at most a value, and to a flag it adds one. -/
theorem give_eq_ok {arguments : List String} (h : st.give p arguments = .ok st') :
    st.Grows st' ∧ (p.arity = .flag → (p.key, Value.flag) ∈ st'.values) := by
  have hset : ∀ v, st.Grows { st with values := st.values ++ [(p.key, v)] } :=
    fun v => ⟨subset_append_left _ _, Subset.refl _⟩
  unfold State.give at h
  dsimp only at h
  split at h
  · split at h
    · cases h
    · cases h
      exact ⟨hset _, fun _ => by simp⟩
  · rename_i harity
    cases h
    exact ⟨hset _, fun hflag => by rw [hflag] at harity; cases harity⟩
  · rename_i harity
    cases h
    exact ⟨hset _, fun hflag => by rw [hflag] at harity; cases harity⟩
  · rename_i harity _
    cases h
    exact ⟨.refl _, fun hflag => by rw [hflag] at harity; cases harity⟩
  · rename_i hnot _ _
    obtain ⟨v, -, h⟩ := bind_ok_iff.mp h
    cases h
    exact ⟨hset _, fun hflag => absurd hflag hnot⟩
  · cases h

/-- The options among marked arguments. -/
abbrev optionsOf (items : List (String × Mark)) : List (String × Mark) := items.filter isOption

/-- A step that loses no option leaves each of them among the items. -/
theorem mem_of_optionsOf_eq (h : optionsOf rest = optionsOf items) {a : String} {hit : Option Hit}
    (hmem : (a, .option hit) ∈ items) : (a, .option hit) ∈ rest := by
  have hoption : (a, Mark.option hit) ∈ optionsOf items := mem_filter.mpr ⟨hmem, rfl⟩
  rw [← h] at hoption
  exact (mem_filter.mp hoption).1

theorem optionsOf_drop {n : Nat} (h : ∀ x ∈ items.take n, isOption x = false) :
    optionsOf (items.drop n) = optionsOf items := by
  conv_rhs => rw [← take_append_drop n items]
  have hnone : (items.take n).filter isOption = [] :=
    filter_eq_nil_iff.mpr fun x hx => by rw [h x hx]; exact Bool.false_ne_true
  show _ = ((items.take n ++ items.drop n).filter isOption)
  rw [filter_append, hnone, nil_append]

theorem isOption_of_mem_take_plainFront :
    ∀ items : List (String × Mark), ∀ x ∈ items.take (plainFront items).length, isOption x = false
  | [] => by simp
  | (a, .plain) :: rest => by
    simp only [plainFront, length_cons, take_succ_cons, forall_mem_cons]
    exact ⟨rfl, isOption_of_mem_take_plainFront rest⟩
  | (a, .divider) :: rest => by simp [plainFront]
  | (a, .option hit) :: rest => by simp [plainFront]

theorem isOption_of_mem_take_dividersFront :
    ∀ items : List (String × Mark), ∀ x ∈ items.take (dividersFront items).length,
    isOption x = false
  | [] => by simp
  | (a, .divider) :: rest => by
    simp only [dividersFront, length_cons, take_succ_cons, forall_mem_cons]
    exact ⟨rfl, isOption_of_mem_take_dividersFront rest⟩
  | (a, .plain) :: rest => by simp [dividersFront]
  | (a, .option hit) :: rest => by simp [dividersFront]

theorem isOption_of_mem_take_untilOption :
    ∀ items : List (String × Mark), ∀ x ∈ items.take (untilOption items).length, isOption x = false
  | [] => by simp
  | (a, .plain) :: rest => by
    simp only [untilOption, length_cons, take_succ_cons, forall_mem_cons]
    exact ⟨rfl, isOption_of_mem_take_untilOption rest⟩
  | (a, .divider) :: rest => by
    simp only [untilOption, length_cons, take_succ_cons, forall_mem_cons]
    exact ⟨rfl, isOption_of_mem_take_untilOption rest⟩
  | (a, .option hit) :: rest => by simp [untilOption]

/-- What a parameter takes by place is never an option. -/
theorem isOption_of_mem_take_span {n : Nat} (h : p.span items = some n) :
    ∀ x ∈ items.take n, isOption x = false := by
  have hlead := isOption_of_mem_take_dividersFront items
  have hmany : some (untilOption items).length = some n →
      ∀ x ∈ items.take n, isOption x = false := by
    rintro ⟨⟩
    exact isOption_of_mem_take_untilOption items
  unfold Parameter.span at h
  dsimp only at h
  split at h
  · exact hmany h
  · split at h
    · rename_i a rest hdrop
      cases h
      -- dividers, a plain argument, and dividers again
      rw [Nat.add_assoc, take_add, hdrop, Nat.add_comm 1, take_succ_cons]
      intro x hx
      rcases mem_append.mp hx with hx | hx
      · exact hlead x hx
      rcases mem_cons.mp hx with rfl | hx
      · rfl
      · exact isOption_of_mem_take_dividersFront rest x hx
    · split at h
      · cases h
      · cases h
        exact hlead

/-- **Giving arguments by place loses no option.** -/
theorem givePlaces_eq_ok : ∀ {ps : List Parameter} {st : State} {items : List (String × Mark)},
    givePlaces st items ps = .ok (st', rest) → st.Grows st' ∧ optionsOf rest = optionsOf items := by
  intro ps
  induction ps with
  | nil =>
    intro st items h
    cases h
    exact ⟨⟨Subset.refl _, Subset.refl _⟩, rfl⟩
  | cons p ps ih =>
    intro st items h
    unfold givePlaces at h
    split at h
    · cases h
      exact ⟨⟨Subset.refl _, Subset.refl _⟩, rfl⟩
    · rename_i n hspan
      obtain ⟨st₁, hgive, h⟩ := bind_ok_iff.mp h
      obtain ⟨hgrows, hoptions⟩ := ih h
      exact ⟨(give_eq_ok hgive).1.trans hgrows,
        hoptions.trans (optionsOf_drop (isOption_of_mem_take_span hspan))⟩

/-- Giving an option what follows it loses no option, and sets a flag. -/
theorem giveFollowing_eq_ok (h : giveFollowing st p rest = .ok (st', rest')) :
    (st.Grows st' ∧ (p.arity = .flag → (p.key, Value.flag) ∈ st'.values)) ∧
    optionsOf rest' = optionsOf rest := by
  have hfront := optionsOf_drop (isOption_of_mem_take_plainFront rest)
  unfold giveFollowing at h
  dsimp only at h
  split at h
  · obtain ⟨_, hgive, h⟩ := bind_ok_iff.mp h
    cases h
    exact ⟨give_eq_ok hgive, rfl⟩
  · obtain ⟨_, hgive, h⟩ := bind_ok_iff.mp h
    cases h
    exact ⟨give_eq_ok hgive, rfl⟩
  · cases h
  · split at h
    · cases h
    · obtain ⟨_, hgive, h⟩ := bind_ok_iff.mp h
      cases h
      exact ⟨give_eq_ok hgive, hfront⟩
  · obtain ⟨_, hgive, h⟩ := bind_ok_iff.mp h
    cases h
    exact ⟨give_eq_ok hgive, rfl⟩
  · obtain ⟨_, hgive, h⟩ := bind_ok_iff.mp h
    cases h
    exact ⟨give_eq_ok hgive, rfl⟩
  · obtain ⟨_, hgive, h⟩ := bind_ok_iff.mp h
    cases h
    exact ⟨give_eq_ok hgive, hfront⟩

/-- Taking the letters of a cluster of flags only adds values. -/
theorem grows_of_giveAttached_go {short : Bool} {q : Option Parameter} :
    ∀ {value : List Char} {st : State} {p : Parameter},
    giveAttached.go u st p short value = .ok (st', q) → st.Grows st' := by
  intro value
  induction value with
  | nil => intro st p h; cases h
  | cons c rest ih =>
    intro st p h
    unfold giveAttached.go at h
    cases short with
    | false => cases h
    | true =>
      cases hfind : u.find? (String.ofList ['-', c]) with
      | none =>
        rw [hfind] at h
        cases h
      | some q' =>
        rw [hfind] at h
        obtain ⟨st₁, hgive, h⟩ := bind_ok_iff.mp h
        refine (give_eq_ok hgive).1.trans ?_
        split at h
        · cases h
          exact .refl _
        · split at h
          · obtain ⟨st₂, hvalue, h⟩ := bind_ok_iff.mp h
            cases h
            exact (give_eq_ok hvalue).1
          · exact ih h

theorem grows_of_giveAttached {name : String} {value : List Char} {q : Option Parameter}
    (h : giveAttached u st p name value = .ok (st', q)) : st.Grows st' := by
  unfold giveAttached at h
  split at h
  · obtain ⟨st₁, hgive, h⟩ := bind_ok_iff.mp h
    cases h
    exact (give_eq_ok hgive).1
  · exact grows_of_giveAttached_go h

/-- **Taking an option loses no other option**, and sets it if it is a flag. -/
theorem giveOption_eq_ok {argument : String} {hit : Option Hit}
    (h : giveOption u st argument hit rest = .ok (st', rest')) :
    st.Grows st' ∧ optionsOf rest' = optionsOf rest ∧
      ∀ p name, hit = some ⟨p, name, none⟩ → p.arity = .flag →
      (p.key, Value.flag) ∈ st'.values := by
  unfold giveOption at h
  cases hit with
  | none =>
    cases h
    exact ⟨⟨Subset.refl _, subset_append_left _ _⟩, rfl, fun _ _ heq => by cases heq⟩
  | some hit =>
    cases hvalue : hit.value with
    | none =>
      simp only [hvalue] at h
      obtain ⟨⟨hgrows, hflag⟩, hoptions⟩ := giveFollowing_eq_ok h
      refine ⟨hgrows, hoptions, ?_⟩
      rintro p name ⟨⟩
      exact hflag
    | some v =>
      -- a value in the argument itself is none of a flag
      have hnone : ∀ p name, some hit = some ⟨p, name, none⟩ → False := by
        rintro p name ⟨⟩
        cases hvalue
      simp only [hvalue] at h
      obtain ⟨⟨st₁, further⟩, hattached, h⟩ := bind_ok_iff.mp h
      have hfirst := grows_of_giveAttached hattached
      cases further with
      | none =>
        cases h
        exact ⟨hfirst, rfl, fun p name heq => (hnone p name heq).elim⟩
      | some q =>
        obtain ⟨⟨hgrows, -⟩, hoptions⟩ := giveFollowing_eq_ok h
        exact ⟨hfirst.trans hgrows, hoptions, fun p name heq => (hnone p name heq).elim⟩

end Steps

/-! ## §4. A whole reading. -/

section Reading

variable {u : Usage} {st' : State} {p : Parameter} {a : String} {items : List (String × Mark)}

/-- What was gathered stays to the end. -/
theorem grows_of_takeAll : ∀ {fuel : Nat} {st : State} {items : List (String × Mark)},
    takeAll u fuel st items = .ok st' → st.Grows st' := by
  intro fuel
  induction fuel with
  | zero =>
    intro st items h
    cases h
    exact ⟨Subset.refl _, subset_append_left _ _⟩
  | succ fuel ih =>
    intro st items h
    unfold takeAll at h
    split at h
    · obtain ⟨⟨st₁, rest⟩, hplaces, h⟩ := bind_ok_iff.mp h
      cases h
      have hgrows := (givePlaces_eq_ok hplaces).1
      exact ⟨hgrows.values, Subset.trans hgrows.extras (subset_append_left _ _)⟩
    · split at h
      · obtain ⟨⟨st₁, rest⟩, hoption, h⟩ := bind_ok_iff.mp h
        exact (giveOption_eq_ok hoption).1.trans (ih h)
      · obtain ⟨⟨st₁, rest⟩, hplaces, h⟩ := bind_ok_iff.mp h
        have hgrows := (givePlaces_eq_ok hplaces).1
        dsimp only at h
        split at h
        · exact hgrows.trans (ih h)
        · have hextras := ih h
          exact hgrows.trans ⟨hextras.values, Subset.trans (subset_append_left _ _) hextras.extras⟩

/-- **A flag among the items is set in the end**, or it is left over. -/
theorem takeAll_flag {name : String} (hflag : p.arity = .flag) :
    ∀ {fuel : Nat} {st : State} {items : List (String × Mark)},
      (a, .option (some ⟨p, name, none⟩)) ∈ items → takeAll u fuel st items = .ok st' →
      (p.key, Value.flag) ∈ st'.values ∨ a ∈ st'.extras := by
  intro fuel
  induction fuel with
  | zero =>
    intro st items hmem h
    cases h
    exact .inr (mem_append_right _ (mem_map_of_mem hmem))
  | succ fuel ih =>
    intro st items hmem h
    have hany : items.any isOption := any_eq_true.mpr ⟨_, hmem, rfl⟩
    unfold takeAll at h
    rw [hany, Bool.not_true, if_neg Bool.false_ne_true] at h
    split at h
    · rename_i b hit rest
      obtain ⟨⟨st₁, rest₁⟩, hoption, hnext⟩ := bind_ok_iff.mp h
      obtain ⟨-, hoptions, hset⟩ := giveOption_eq_ok hoption
      -- the flag is the option at the front, or it is still to come
      rcases mem_cons.mp hmem with heq | hmem
      · cases heq
        exact .inl ((grows_of_takeAll hnext).values (hset p name rfl hflag))
      · exact ih (mem_of_optionsOf_eq hoptions hmem) hnext
    · obtain ⟨⟨st₁, rest⟩, hplaces, h⟩ := bind_ok_iff.mp h
      have hoptions := (givePlaces_eq_ok hplaces).2
      dsimp only at h
      split at h
      · exact ih (mem_of_optionsOf_eq hoptions hmem) h
      · have hdrop := optionsOf_drop (isOption_of_mem_take_untilOption rest)
        exact ih (mem_of_optionsOf_eq (hdrop.trans hoptions) hmem) h

/-- **A flag before the divider is set** whenever the arguments can be read. -/
theorem isSet_of_read {name : String} {arguments : List String} {values : Values}
    (hdash : Text.startsWith name "-")
    (hfind : { u with parameters := helpParameter :: u.parameters : Usage }.find? name = some p)
    (hflag : p.arity = .flag) (hmem : name ∈ arguments.takeWhile (· != "--"))
    (h : u.read arguments = .ok values) : values.isSet p.key := by
  obtain ⟨items, hitems, h⟩ := bind_ok_iff.mp h
  obtain ⟨st, hst, h⟩ := bind_ok_iff.mp h
  have hmark := mem_markAll hdash hfind hmem hitems
  dsimp only at h
  split at h
  · cases h
  · split at h
    · cases h
    · rename_i hextras
      cases h
      rcases takeAll_flag hflag hmark hst with hset | hleft
      · exact Values.isSet_of_mem hset
      · -- what is left over is refused
        rw [Bool.not_eq_true, Bool.not_eq_false', List.isEmpty_iff] at hextras
        rw [hextras] at hleft
        cases hleft

end Reading

end AddonAudit.Options
