/-
  AddonAudit.Proofs.Report.Limits — how many of its messages a check is told with.

  The lines of a check are its title, one line for each message that is shown, and, if the limit
  leaves some out, how many more there are.  These numbers add up for a positive limit and for none.
  A limit of zero shows nothing and announces nothing; a negative one leaves out messages at the end
  and announces more of them than there are.
-/
import AddonAudit.Report.Printer
import Mathlib.Data.List.Infix

namespace AddonAudit

/-! ## §1. The lines of a check. -/

/-- The line that announces messages that are not shown. -/
def announcement : Nat → List String
  | 0 => []
  | k + 1 => ["    ... and " ++ toString (k + 1) ++ " more"]

/-- The lines of a check: its title, the messages that are shown, and how many more are
    announced. -/
def tally (st : Style) (check : String) (messages told : List String) (more : Nat) : List String :=
  ("\n  " ++ st.bold (checkTitle check) ++ " (" ++ toString messages.length ++ ")") ::
    told.map (fun m => "    - " ++ cutMessage m) ++ announcement more

/-- How many messages of a check are announced. -/
def Style.announced (st : Style) (messages : List String) : Nat :=
  match st.limit with
  | none => 0
  | some n => if n = 0 then 0 else (messages.length - n).toNat

variable {st : Style} {messages : List String}

theorem Style.remainder_eq (st : Style) (messages : List String) :
    st.remainder messages = announcement (st.announced messages) := by
  unfold remainder announced
  cases st.limit with
  | none => rfl
  | some n =>
    by_cases hzero : n = 0
    · simp [hzero, announcement]
    by_cases hless : n < messages.length
    · obtain ⟨k, hk⟩ : ∃ k : Nat, (messages.length : Int) - n = k + 1 :=
        ⟨(messages.length - n - 1).toNat, by omega⟩
      have hk' : ((messages.length : Int) - n).toNat = k + 1 := by omega
      dsimp only
      rw [if_neg hzero, hk']
      simp [hzero, hless, hk, announcement]
      rfl
    · have hnone : ((messages.length : Int) - n).toNat = 0 := by omega
      simp [hzero, hless, hnone, announcement]

theorem checkLines_eq (st : Style) (check : String) (messages : List String) :
    checkLines st check messages = tally st check messages (st.shown messages)
    (st.announced messages) := by
  unfold checkLines tally
  rw [st.remainder_eq]
  rfl

theorem Style.shown_prefix (st : Style) (messages : List String) :
    st.shown messages <+: messages := by
  unfold shown
  split
  · exact List.prefix_rfl
  · split <;> exact List.take_prefix _ _

/-- **What is shown and what is announced make up the whole** for a positive limit and for none. -/
theorem Style.shown_add_announced :
    (st.shown messages).length + st.announced messages = messages.length ↔ ∀ n, st.limit = some n →
    0 < n ∨ n = 0 ∧ messages = [] := by
  unfold shown announced
  cases st.limit with
  | none => simp
  | some n =>
    simp only [Option.some.injEq, forall_eq', ← List.length_eq_zero_iff]
    split <;> simp only [List.length_take] <;> split <;> omega

/-! ## §2. The lines of a report. -/

/-- The lines of every check that is shown stand in a report's lines. -/
theorem Report.checkLines_infix {r : Report} {s : Severity} {check : String} (addon : String)
    (changedOnly : Bool) (hr : ¬ r.isEmpty) (hs : st.shows s)
    (hmem : (check, messages) ∈ r.ofSeverity s) :
    checkLines st check messages <:+: r.lines st addon changedOnly := by
  have hflat {α : Type} {f : α → List String} {a : α} {as : List α} (ha : a ∈ as) :
      f a <:+: as.flatMap f :=
    List.infix_of_mem_flatten (List.mem_map_of_mem ha)
  have hseverity : checkLines st check messages <:+: severityLines st r s := by
    unfold severityLines
    have hsome : (r.ofSeverity s).isEmpty = false :=
      List.isEmpty_eq_false_iff.mpr (List.ne_nil_of_mem hmem)
    simp only [hsome, hs, Bool.not_true, Bool.or_self, Bool.false_eq_true, if_false]
    exact (hflat (f := fun p : String × List String => checkLines st p.1 p.2)
      (List.mem_mergeSort.mpr hmem)).trans ((List.suffix_append _ _).isInfix)
  have hall : s ∈ Severity.all := by cases s <;> decide
  unfold lines
  rw [if_neg hr]
  exact (hseverity.trans (hflat hall)).trans ⟨_, _, rfl⟩

/-- **The lines of every check that is shown** stand in a report: they are its title, the first
    messages and how many more there are said to be.  The messages that are printed and the number
    that is announced make up all of them just for a positive limit, for none, and for a limit of
    zero on no messages. -/
theorem Report.lines_account {r : Report} {s : Severity} {check : String} (addon : String)
    (changedOnly : Bool) (hr : ¬ r.isEmpty) (hs : st.shows s)
    (hmem : (check, messages) ∈ r.ofSeverity s) :
    checkLines st check messages <:+: r.lines st addon changedOnly ∧
      ∃ told more, checkLines st check messages = tally st check messages told more ∧
        told <+: messages ∧
        (told.length + more = messages.length ↔
          ∀ n, st.limit = some n → 0 < n ∨ n = 0 ∧ messages = []) := by
  refine ⟨r.checkLines_infix addon changedOnly hr hs hmem, st.shown messages, st.announced messages,
    ?_, ?_, ?_⟩
  · exact checkLines_eq st check messages
  · exact st.shown_prefix messages
  · exact Style.shown_add_announced

/-- A plain style with a limit. -/
def upTo (limit : Int) : Style where
  colors := false
  symbols := false
  limit := limit
  showInfo := true
  toErrors := false

/-- A report on one check, all else being left open. -/
def oneCheck (messages : List String) : Report where
  settings := {
    scope := .null, baseBranch := .null, release := none, severities := [], blocking :=
    [], disabled := []
    skipLabel := [], skipHelp := [], skipDocstring := [], minDocstring := .null, excludes := .null }
  findings := [("x", messages)]

theorem lines_account_upTo_one :
    checkLines (upTo 1) "x" ["a", "b"] <:+: (oneCheck ["a", "b"]).lines (upTo 1) "m" false ∧
    ∃ told more, checkLines (upTo 1) "x" ["a", "b"] = tally (upTo 1) "x" ["a", "b"] told more ∧
      told <+: ["a", "b"] ∧ told.length + more = 2 := by
  obtain ⟨hlines, told, more, heq, htold, hsum⟩ :=
    Report.lines_account (r := oneCheck ["a", "b"]) (s := .warning) "m" false (by decide)
    (show (upTo 1).shows .warning from rfl) (List.mem_singleton.mpr rfl)
  exact ⟨hlines, told, more, heq, htold, hsum.mpr fun n hn => .inl (by cases hn; decide)⟩

/-- With a limit of zero a message is neither told nor announced. -/
theorem lines_upTo_zero :
    (oneCheck ["a"]).lines (upTo 0) "" false = ["", "", "[WARN] WARNINGS (1)", thinRule,
    "\n  X (1)", "", thinRule, "Summary: [ERROR] 0 errors | [WARN] 1 warning"] := by
  decide +kernel

end AddonAudit
