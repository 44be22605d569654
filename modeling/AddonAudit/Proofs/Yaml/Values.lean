/-
  AddonAudit.Proofs.Yaml.Values — what tables hold for a key.

  Entries are put into a table one after another, those of merged mappings before the mapping's own,
  so that the last own entry for a key decides what the table holds for it.
-/
import AddonAudit.Proofs.Traversal
import AddonAudit.Yaml.Value

namespace AddonAudit

/-! ## §1. Tables. -/

namespace Datum

/-- Only a text is the same as a text. -/
theorem same_text_iff {d : Datum} {s : String} : d.same (.text s) ↔ d = .text s := by
  cases d with
  | text t => simp [same]
  | _ => simp [same, number?]

theorem text_same_iff {d : Datum} {s : String} : (Datum.text s).same d ↔ d = .text s := by
  cases d with
  | text t =>
    rw [same, beq_iff_eq, Datum.text.injEq]
    exact eq_comm
  | _ => simp [same, number?]

/-- **What a table holds for a text after a key is set**: the new value if the key is that text, and
    otherwise what it held before. -/
theorem lookupText_insert (s : String) (k v : Datum) (es : List (Datum × Datum)) :
    lookupText s (insert k v es) = if k.same (.text s) then some v else lookupText s es := by
  unfold lookupText
  induction es with
  | nil => simp [insert, lookup]
  | cons e es ih =>
    obtain ⟨k', v'⟩ := e
    unfold insert
    by_cases hk : k'.same k
    · -- the key is known, so that it is the text exactly if the one in its place is
      have hsame : k'.same (.text s) = k.same (.text s) := by
        rw [Bool.eq_iff_iff]
        constructor
        · intro h
          rw [same_text_iff.mp h] at hk
          rw [text_same_iff.mp hk]
          exact same_text_iff.mpr rfl
        · intro h
          rw [same_text_iff.mp h] at hk
          exact hk
      rw [if_pos hk, lookup, lookup, hsame]
      split <;> rfl
    · rw [if_neg hk, lookup, lookup, ih]
      by_cases hs : k'.same (.text s)
      · have hne : k.same (.text s) = false := by
          rw [Bool.eq_false_iff]
          intro h
          rw [same_text_iff.mp h, same_text_iff.mp hs] at hk
          exact hk (same_text_iff.mpr rfl)
        rw [if_pos hs, if_pos hs, if_neg (by rw [hne]; decide)]
      · rw [if_neg hs, if_neg hs]

end Datum

namespace Yaml

open Traversal (bind_ok_iff)

/-! ## §2. Scalars that stand for texts. -/

theorem checked_eq_ok {x : Except Fault Datum} {d : Datum} (h : checked x = .ok d) : x = .ok d := by
  cases x with
  | error f => cases h
  | ok d' =>
    cases h
    rfl

/-- Whether what a computation gives, if it gives anything, is of a kind. -/
def Yields {ε : Type} (P : Datum → Prop) (x : Except ε Datum) : Prop := ∀ d, x = .ok d → P d

section Yields

variable {ε α : Type} {P : Datum → Prop}

theorem Yields.error (e : ε) : Yields P (.error e) := fun _ h => by cases h

theorem Yields.ok {d : Datum} (hd : P d) : Yields P (.ok d : Except ε Datum) := fun _ h => by
  cases h
  exact hd

theorem Yields.bind {x : Except ε α} {g : α → Except ε Datum} (hg : ∀ a, Yields P (g a)) :
    Yields P (x >>= g) := by
  intro d h
  cases x with
  | error e => cases h
  | ok a => exact hg a d h

/-- A fault under a condition comes before what follows. -/
theorem Yields.guard {c : Prop} [Decidable c] {e : ε} {g : Unit → Except ε Datum}
    (hg : Yields P (g ())) : Yields P (if c then throw e >>= g else g ()) := by
  split
  · exact .error e
  · exact hg

end Yields

/-- A datum that is no text. -/
def NotText (d : Datum) : Prop := ∀ s, d ≠ .text s

variable {s text : String} {fuel : Nat}

theorem Yields.absurd {ε : Type} {x : Except ε Datum} (hx : Yields NotText x) {p : Prop}
    (h : x = .ok (.text s)) : p := (hx _ h s rfl).elim

theorem truthOf_notText (text : String) : Yields NotText (truthOf text) := by
  unfold truthOf
  dsimp only
  split
  · exact .ok fun s h => by cases h
  · exact .error _

theorem wholeOf_notText (text : String) : Yields NotText (wholeOf text) := by
  have hend {ε : Type} (negative : Bool) (n : Int) :
      Yields NotText (.ok (.int (if negative then -n else n)) : Except ε Datum) := .ok
      fun s h => by cases h
  unfold wholeOf
  refine .guard ?_
  dsimp only
  split
  · exact .bind fun n => hend _ n
  · exact .bind fun n => hend _ n
  · exact .bind fun n => hend _ n
  · exact .bind fun n => hend _ n
  · exact .error _
  · split
    · exact .bind fun _ => .bind fun n => hend _ n
    · exact .bind fun n => hend _ n

/-- A scalar of the form of a real number is one, if it is anything. -/
theorem realOf_float (text : String) : Yields (fun d => ∃ x, d = .float x) (realOf text) := by
  have hend {ε : Type} (negative : Bool) (x : Float) : Yields (fun d => ∃ x, d = .float x)
      (.ok (.float (if negative then -x else x)) : Except ε Datum) := .ok ⟨_, rfl⟩
  unfold realOf
  refine .guard ?_
  dsimp only
  split
  · exact .bind fun x => hend _ x
  · exact .bind fun x => hend _ x
  · split
    · exact .bind fun _ => .bind fun x => hend _ x
    · exact .bind fun x => hend _ x

theorem realOf_notText (text : String) : Yields NotText (realOf text) := by
  rintro d h s rfl
  obtain ⟨x, hx⟩ := realOf_float text _ h
  cases hx

/-- A day with a time or without one. -/
theorem dayOf_notText (y m d : Nat) (t : Option TimeParts) : Yields NotText (match t with
    | none => .ok (.date y m d)
    | some t => do
      if 24 ≤ t.hour then throw (.badDate "hour must be in 0..23")
      if 60 ≤ t.minute then throw (.badDate "minute must be in 0..59")
      if 60 ≤ t.second then throw (.badDate "second must be in 0..59")
      return .moment ⟨y, m, d, t.hour, t.minute, t.second, t.micro, t.offset⟩ :
        Except Fault Datum) := by
  cases t with
  | none => exact .ok fun s h => by cases h
  | some t => exact .guard (.guard (.guard (.ok fun s h => by cases h)))

theorem dateOf_notText (text : String) : Yields NotText (dateOf text) := by
  unfold dateOf
  split
  · exact .error _
  · rename_i y m d t heq
    clear heq
    have hday := dayOf_notText y m d t
    generalize (t.bind fun x => x.offset) = o
    cases o with
    | none => exact .guard (.guard (.guard hday))
    | some o => exact .guard (.guard (.guard (.guard hday)))

theorem binaryOf_notText (text : String) : Yields NotText (binaryOf text) := by
  unfold binaryOf
  split
  · exact .error _
  · split
    · exact .ok fun s h => by cases h
    · exact .error _

theorem text_of_formValue (h : formValue text = .ok (.text s)) : text = s := by
  unfold formValue at h
  split at h
  · exact (truthOf_notText text).absurd (checked_eq_ok h)
  · exact (realOf_notText text).absurd (checked_eq_ok h)
  · exact (wholeOf_notText text).absurd (checked_eq_ok h)
  · cases h
  · exact (dateOf_notText text).absurd (checked_eq_ok h)
  · cases h
    rfl
  · cases h
  · cases h

theorem text_of_taggedValue {tag : String} (h : taggedValue tag text = .ok (.text s)) :
    text = s := by
  unfold taggedValue at h
  split at h
  · cases h
    rfl
  split at h
  · cases h
  split at h
  · exact (truthOf_notText text).absurd (checked_eq_ok h)
  split at h
  · exact (wholeOf_notText text).absurd (checked_eq_ok h)
  split at h
  · exact (realOf_notText text).absurd (checked_eq_ok h)
  split at h
  · exact (dateOf_notText text).absurd (checked_eq_ok h)
  split at h
  · exact (binaryOf_notText text).absurd h
  · cases h

theorem scalarValue_of_valueOf {kind : Kind} {d : Datum}
    (h : valueOf fuel (.scalar kind text) = .ok d) : scalarValue kind text = .ok d := by
  cases fuel with
  | zero =>
    unfold valueOf at h
    cases h
  | succ fuel =>
    unfold valueOf at h
    exact h

theorem valueOf_sequence_notText (fuel : Nat) (tag : Option String) (items : List Node) :
    Yields NotText (valueOf (fuel + 1) (.sequence tag items)) := by
  have hend (ds : List Datum) : Yields NotText (.ok (.list ds) : Except Problem Datum) :=
    .ok fun s h => by cases h
  unfold valueOf
  cases tag with
  | none => exact .bind hend
  | some t =>
    dsimp only
    split
    · exact .bind hend
    · split
      · exact .bind hend
      · exact .error _

theorem valueOf_mapping_notText (fuel : Nat) (tag : Option String) (entries : List (Node × Node)) :
    Yields NotText (valueOf (fuel + 1) (.mapping tag entries)) := by
  have htable (es : List (Datum × Datum)) : Yields NotText
      (.ok (.table es) : Except Problem Datum) :=
    .ok fun s h => by cases h
  have hset (ds : List Datum) : Yields NotText (.ok (.set ds) : Except Problem Datum) :=
    .ok fun s h => by cases h
  unfold valueOf
  cases tag with
  | none => exact .bind fun _ => .bind htable
  | some t =>
    dsimp only
    split
    · exact .bind fun _ => .bind htable
    · split
      · exact .bind fun _ => .bind fun es => hset _
      · exact .error _

/-- **Only a scalar that reads as a text stands for it.** -/
theorem text_of_valueOf {n : Node} (h : valueOf fuel n = .ok (.text s)) :
    ∃ kind, n = .scalar kind s := by
  cases fuel with
  | zero =>
    unfold valueOf at h
    cases h
  | succ fuel =>
    cases n with
    | scalar kind text =>
      refine ⟨kind, ?_⟩
      have h := scalarValue_of_valueOf h
      cases kind with
      | byForm => rw [text_of_formValue h]
      | text =>
        cases h
        rfl
      | tagged tag => rw [text_of_taggedValue h]
    | sequence tag items => exact (valueOf_sequence_notText fuel tag items).absurd h
    | mapping tag entries => exact (valueOf_mapping_notText fuel tag entries).absurd h

/-! ## §3. Entries in order. -/

/-- What one entry of a mapping does to a table. -/
theorem entriesOf_cons {before tbl : List (Datum × Datum)} {k v : Node} {rest : List (Node × Node)}
    (h : entriesOf fuel before ((k, v) :: rest) = .ok tbl) :
    ∃ fuel' key value, valueOf fuel' k = .ok key ∧ valueOf fuel' v = .ok value ∧
      entriesOf fuel' (Datum.insert key value before) rest = .ok tbl := by
  cases fuel with
  | zero =>
    unfold entriesOf at h
    cases h
  | succ fuel =>
    unfold entriesOf at h
    obtain ⟨key, hkey, h⟩ := bind_ok_iff.mp h
    dsimp only at h
    split at h
    · cases h
    · rename_i hhashable
      obtain ⟨value, hvalue, h⟩ := bind_ok_iff.mp h
      obtain ⟨after, hafter, h⟩ := bind_ok_iff.mp h
      rw [addEntry, if_neg hhashable] at hafter
      cases hafter
      exact ⟨fuel, key, value, hkey, hvalue, h⟩

/-- The last entries are put into the table that the ones before them make. -/
theorem entriesOf_append {es es' : List (Node × Node)} :
    ∀ {fuel : Nat} {before tbl : List (Datum × Datum)}, entriesOf fuel before (es ++
    es') = .ok tbl → ∃ fuel' before', entriesOf fuel' before' es' = .ok tbl := by
  induction es with
  | nil => exact fun h => ⟨_, _, h⟩
  | cons e es ih =>
    intro fuel before tbl h
    obtain ⟨fuel', key, value, -, -, h⟩ := entriesOf_cons h
    exact ih h

section Key

variable {name : String} {P : Datum → Prop}

/-- Whether a table holds a value of a kind for a text. -/
def Holds (name : String) (P : Datum → Prop) (tbl : List (Datum × Datum)) : Prop :=
  ∃ d, Datum.lookupText name tbl = some d ∧ P d

/-- Whether the values of all entries for a text are of a kind. -/
def Gives (name : String) (P : Datum → Prop) (es : List (Node × Node)) : Prop :=
  ∀ kind v, (.scalar kind name, v) ∈ es → ∀ fuel, Yields P (valueOf fuel v)

variable {fuel : Nat}

theorem valueOf_text_of_formOf (hname : formOf name = .text) {d : Datum}
    (h : valueOf fuel (.scalar .byForm name) = .ok d) : d = .text name := by
  replace h : formValue name = .ok d := scalarValue_of_valueOf h
  rw [formValue, hname] at h
  cases h
  rfl

/-- **The last entry for a text decides what a table holds for it.**  An entry for another key
    leaves what the table holds for the text, and one for the text replaces it. -/
theorem holds_entriesOf (hname : formOf name = .text) : ∀ {es : List (Node × Node)} {fuel : Nat}
    {before tbl : List (Datum × Datum)}, entriesOf fuel before es = .ok tbl → Gives name P es →
      (Holds name P before ∨ ∃ v, (.scalar .byForm name, v) ∈ es) → Holds name P tbl := by
  intro es
  induction es with
  | nil =>
    intro fuel before tbl h _ hbefore
    obtain hbefore | ⟨v, hv⟩ := hbefore
    · cases fuel with
      | zero =>
        unfold entriesOf at h
        cases h
      | succ fuel =>
        unfold entriesOf at h
        cases h
        exact hbefore
    · cases hv
  | cons e es ih =>
    obtain ⟨k, v⟩ := e
    intro fuel before tbl h hgives hbefore
    obtain ⟨fuel', key, value, hkey, hvalue, h⟩ := entriesOf_cons h
    refine ih h (fun kind v hv => hgives kind v (List.mem_cons_of_mem _ hv)) ?_
    by_cases hsame : key.same (.text name)
    · -- the last entry with the key decides
      left
      rw [Datum.same_text_iff.mp hsame] at hkey
      obtain ⟨kind, rfl⟩ := text_of_valueOf hkey
      refine ⟨value, ?_, hgives kind v List.mem_cons_self fuel' value hvalue⟩
      rw [Datum.lookupText_insert, if_pos hsame]
    · obtain ⟨d, hd, hP⟩ | ⟨v', hv'⟩ := hbefore
      · left
        refine ⟨d, ?_, hP⟩
        rw [Datum.lookupText_insert, if_neg hsame, hd]
      · right
        obtain heq | hmem := List.mem_cons.mp hv'
        · -- an entry for the text has the text as its key
          cases heq
          exact absurd (Datum.same_text_iff.mpr (valueOf_text_of_formOf hname hkey)) hsame
        · exact ⟨v', hmem⟩

theorem plainKey_eq_scalar {k : Node} {kind : Kind} (hne : name ≠ "=")
    (h : plainKey k = .scalar kind name) : k = .scalar kind name := by
  unfold plainKey at h
  split at h
  · cases h
    exact absurd rfl hne
  · exact h

/-- **A mapping's own entries decide**, whatever the mappings that are merged into it hold. -/
theorem holds_flatten (hname : formOf name = .text) (hne : name ≠ "=") {es es' : List (Node × Node)}
    {before tbl : List (Datum × Datum)} (hflat : flatten es = .ok es')
    (h : entriesOf fuel before es' = .ok tbl)
    (hgives : Gives name P es) (hown : ∃ v, (.scalar .byForm name, v) ∈ es) : Holds name P tbl := by
  unfold flatten at hflat
  obtain ⟨ms, -, hflat⟩ := bind_ok_iff.mp hflat
  cases hflat
  obtain ⟨fuel', before', h⟩ := entriesOf_append h
  refine holds_entriesOf hname h ?_ (.inr ?_)
  · intro kind v hmem
    obtain ⟨⟨k, v'⟩, he, heq⟩ := List.mem_map.mp hmem
    obtain ⟨hk, rfl⟩ := Prod.mk.inj heq
    have hk := plainKey_eq_scalar hne hk
    subst hk
    exact hgives kind v' (List.mem_filter.mp he).1
  · obtain ⟨v, hv⟩ := hown
    refine ⟨v, List.mem_map.mpr ⟨(.scalar .byForm name, v), List.mem_filter.mpr ⟨hv, ?_⟩, ?_⟩⟩
    · simp [isMergeKey, hname]
    · rw [plainKey]
      simpa using hne

/-- **What the table of a mapping holds for a text is what the mapping's own entries for it
    give.** -/
theorem holds_of_valueOf (hname : formOf name = .text) (hne : name ≠ "=") {tag : Option String}
    {es : List (Node × Node)} {tbl : List (Datum × Datum)}
    (h : valueOf fuel (.mapping tag es) = .ok (.table tbl)) (hgives : Gives name P es)
    (hown : ∃ v, (.scalar .byForm name, v) ∈ es) : Holds name P tbl := by
  have htable {fuel : Nat} (h : (flatten es >>= fun es' => entriesOf fuel [] es' >>= fun tbl =>
      (.ok (.table tbl) : Except Problem Datum)) = .ok (.table tbl)) : Holds name P tbl := by
    obtain ⟨es', hflat, h⟩ := bind_ok_iff.mp h
    obtain ⟨tbl', hentries, h⟩ := bind_ok_iff.mp h
    cases h
    exact holds_flatten hname hne hflat hentries hgives hown
  cases fuel with
  | zero =>
    unfold valueOf at h
    cases h
  | succ fuel =>
    unfold valueOf at h
    cases tag with
    | none => exact htable h
    | some t =>
      dsimp only at h
      split at h
      · exact htable h
      · split at h
        · obtain ⟨es', -, h⟩ := bind_ok_iff.mp h
          obtain ⟨tbl', -, h⟩ := bind_ok_iff.mp h
          cases h
        · cases h

end Key

end Yaml

end AddonAudit
