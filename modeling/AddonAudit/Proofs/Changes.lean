/-
  AddonAudit.Proofs.Changes — finding out what changed.

  The context, the base branch and the changed files are found by running commands and looking at
  the environment.  None of this changes the world but for its log, and none of it depends on the
  log, so asking twice gives the same answer.  A command that fails is taken for an answer
  everywhere, so the search goes on to its end whatever git says.  But only the context is found out
  without git: where this is not installed, the next command stops the search.
-/
import AddonAudit.Config
import AddonAudit.Proofs.Session
import AddonAudit.Proofs.Text.Replacing
import AddonAudit.Proofs.Workspace.Path

namespace AddonAudit

open List
open Session (Looks Settles)

/-! ## §1. Commands of git. -/

/-- A world with git: each of its commands gives a result, with any exit code and any text without
    null characters.  There is none in the environment either. -/
def World.HasGit (w : World) : Prop :=
  (∀ entry ∈ w.processes, ∀ args, entry.1 = " ".intercalate ("git" :: args) →
    ∃ r, entry.2 = some r ∧ '\x00' ∉ r.out.toList) ∧ ∀ v ∈ w.env, '\x00' ∉ v.2.toList

variable {w : World} {d : Prop}

/-- Words that a command can be made of. -/
abbrev Handable (args : List String) : Prop := ∀ a ∈ args, '\x00' ∉ a.toList

theorem World.HasGit.answer (h : w.HasGit) {args : List String} (hargs : Handable args) :
    ∃ r, w.answer ("git" :: args) = .ok r ∧ '\x00' ∉ r.out.toList := by
  have hresult : ∀ {entry}, w.processes.find? (·.1 == " ".intercalate ("git" :: args)) =
    some entry →
      ∃ r, entry.2 = some r ∧ '\x00' ∉ r.out.toList := fun hfind =>
    h.1 _ (mem_of_find?_eq_some hfind) args (beq_iff_eq.mp (find?_some hfind :))
  have hhandable : ("git" :: args).all Session.isHandable := by
    refine all_eq_true.mpr fun a ha => ?_
    rcases mem_cons.mp ha with rfl | ha
    · decide
    · simpa [Session.isHandable] using hargs a ha
  unfold World.answer
  rw [hhandable, if_neg (by decide)]
  split
  · rename_i r hfind
    obtain ⟨r', heq, hr⟩ := hresult hfind
    cases heq
    exact ⟨r, rfl, hr⟩
  · rename_i hfind
    nomatch hresult hfind
  · exact ⟨_, rfl, by decide⟩

/-- What a command comes to: its result, or that it failed. -/
def Answered : Except Fault ProcessResult → Prop
  | .ok r => '\x00' ∉ r.out.toList
  | .error f => f.isCommandFailure

section

variable (hd : d → w.HasGit)

include hd

theorem looks_runChecked {args : List String} (hargs : d → Handable args) :
    Looks w d (fun r => d → Answered r)
    (Session.attempt (Session.runChecked ("git" :: args) none)) := by
  obtain ⟨s, hs, hanswer⟩ : ∃ s, Settles True w (Session.runChecked ("git" :: args) none) s ∧
      (d → Answered s) := by
    have hrun : Settles True w _ _ := .run ("git" :: args) none
    have hgit := fun h : d => (hd h).answer (hargs h)
    cases hanswer : w.answer ("git" :: args) with
    | error e =>
      rw [hanswer] at hrun hgit
      exact ⟨_, hrun.bind_error, fun h => nomatch hgit h⟩
    | ok r =>
      rw [hanswer] at hrun hgit
      by_cases hcode : r.code == 0
      · refine ⟨.ok r, hrun.bind_ok ?_, fun h => ?_⟩
        · rw [if_pos hcode]
          exact .pure r
        · obtain ⟨r', heq, hnull⟩ := hgit h
          cases heq
          exact hnull
      · refine ⟨.error (.commandFailed ("git" :: args) r.code), hrun.bind_ok ?_, fun _ => rfl⟩
        rw [if_neg hcode]
        exact .throw _
  exact ⟨.ok s, hs.attempt, fun _ heq => Except.ok.inj heq ▸ hanswer, fun _ => ⟨s, rfl⟩⟩

theorem looks_runIfAble {args : List String} (hargs : d → Handable args) :
    Looks w d (fun r => d → ∀ result ∈ r, '\x00' ∉ result.out.toList)
    (runIfAble ("git" :: args)) := by
  unfold runIfAble
  refine (looks_runChecked hd hargs).bind fun r hr => ?_
  cases r with
  | ok r => exact .pure fun h result hresult => Option.some.inj hresult ▸ hr h
  | error f =>
    exact .ite (fun _ => .pure fun _ => nofun) fun hother => .throw fun h => hother (hr h)

/-! ## §2. The context and the base branch. -/

theorem Context.looks_detect : Looks w d (fun _ => True) Context.detect := by
  unfold Context.detect
  refine .get_bind (.ite (fun _ => .pure trivial) fun _ => ?_) fun _ => rfl
  refine (looks_runIfAble hd fun _ => by decide).attempt.bind fun r hr => ?_
  match r with
  | .ok (some _) => exact .pure trivial
  | .ok none => exact .pure trivial
  | .error _ => exact .ite (fun _ => .pure trivial) fun _ => .throw fun h => nomatch hr.2 h

omit hd in
theorem not_mem_origin {b : String} (h : '\x00' ∉ b.toList) : '\x00' ∉ ("origin/" ++ b).toList := by
  rw [String.toList_append, mem_append, not_or]
  exact ⟨by decide, h⟩

theorem looks_firstBranch : ∀ bs : List String, (∀ b ∈ bs, '\x00' ∉ b.toList) →
    Looks w d (fun b => '\x00' ∉ b.toList) (firstBranch bs)
  | [], _ => .pure (by decide)
  | b :: bs, h => by
    obtain ⟨hb, hbs⟩ := forall_mem_cons.mp h
    have horigin := not_mem_origin hb
    unfold firstBranch
    refine (looks_runIfAble hd fun _ => ?_).bind fun r _ => ?_
    · simpa [Handable] using horigin
    · cases r with
      | some _ => exact .pure horigin
      | none => exact looks_firstBranch bs hbs

omit hd in
/-- What the environment says has no null characters. -/
theorem World.HasGit.setting? (h : w.HasGit) {name value : String}
    (hvalue : w.setting? name = some value) : '\x00' ∉ value.toList := by
  obtain ⟨v, hv, rfl⟩ := Option.map_eq_some_iff.mp hvalue
  exact h.2 v (mem_of_find?_eq_some hv)

theorem looks_detectBase : Looks w d (fun b => d → '\x00' ∉ b.toList) detectBase := by
  have husual : Looks w d (fun b => d → '\x00' ∉ b.toList) (firstBranch ["main", "master",
      "develop"]) :=
    (looks_firstBranch hd _ (by decide)).mono id fun _ hb _ => hb
  have hpull : ∀ g, (∀ b, g = some b → d → '\x00' ∉ b.toList) →
      Looks w d (fun b => d → '\x00' ∉ b.toList) (detectBase.fromPullRequest g) := by
    intro g hg
    cases g with
    | some g => exact .ite (fun _ => .pure fun h => not_mem_origin (hg g rfl h)) fun _ => husual
    | none => exact husual
  unfold detectBase
  refine .get_bind ?_ fun _ => rfl
  split
  · rename_i b hb
    refine .ite (fun _ => .pure fun h => ?_) fun _ => hpull _ fun _ heq h => (hd h).setting? heq
    split
    · exact (hd h).setting? hb
    · exact not_mem_origin ((hd h).setting? hb)
  · exact hpull _ fun _ heq h => (hd h).setting? heq

end

namespace Changes

/-- The base branch is a text without null characters. -/
def HasBase (c : Changes) : Prop := ∃ b, c.base = .text b ∧ '\x00' ∉ b.toList

/-- A base branch is found, unless one is given. -/
theorem looks_start (base : Datum) : Looks w w.HasGit
    (fun c => (base.truthy → ∃ b, base = .text b ∧ '\x00' ∉ b.toList) → w.HasGit → c.HasBase)
    (start base) := by
  unfold start
  refine (Context.looks_detect id).bind fun _ _ => .ite (fun htruthy => .pure fun h _ => h htruthy)
    fun _ => ?_
  exact (looks_detectBase id).bind fun b hb => .pure fun _ h => ⟨b, rfl, hb h⟩

/-! ## §3. The changed files. -/

variable (c : Changes)

theorem looks_note (message : String) : Looks w d (fun _ => True) (c.note message) := by
  unfold note Session.see
  refine .bind (P := fun _ => True) (.get_bind (.pure trivial) fun _ => rfl) fun _ _ => ?_
  exact .ite (fun _ => .printLine _) fun _ => .pure trivial

theorem looks_baseWord (hbase : d → c.HasBase) (place : Nat) :
    Looks w d (fun b => d → '\x00' ∉ b.toList) (c.baseWord place) := by
  unfold baseWord
  split
  · rename_i b hb
    refine .pure fun h => ?_
    obtain ⟨b', hb', hnull⟩ := hbase h
    cases hb.symm.trans hb'
    exact hnull
  · rename_i hother
    refine .throw fun h => ?_
    obtain ⟨b, hb, -⟩ := hbase h
    exact hother b hb

theorem stripChars_sublist {cs : List Char} : (Text.stripChars cs).Sublist cs := by
  unfold Text.stripChars Text.dropTailWhile
  have htail : ((cs.dropWhile Text.isBlank).reverse.dropWhile Text.isBlank).reverse.Sublist
      (cs.dropWhile Text.isBlank).reverse.reverse := (dropWhile_sublist _).reverse
  rw [reverse_reverse] at htail
  exact htail.trans (dropWhile_sublist _)

/-- Lines of a text without null characters are paths. -/
theorem resolved_ok {out : String} (h : '\x00' ∉ out.toList) (keep : String → Bool) :
    ∃ files, resolved w ((outputLines out).filter keep) = .ok files := by
  have hnone : ((outputLines out).filter keep).any (·.toList.contains '\x00') = false := by
    rw [any_eq_false]
    intro line hline hnull
    obtain ⟨piece, hpiece, rfl⟩ := mem_map.mp (mem_filter.mp hline).1
    rw [String.toList_ofList, contains_iff_mem] at hnull
    obtain ⟨hmem, -⟩ := Text.of_mem_splitWhere _ piece hpiece _ hnull
    rw [Text.strip, String.toList_ofList] at hmem
    exact h (stripChars_sublist.mem hmem)
  unfold resolved
  rw [if_neg (by rw [hnone]; decide)]
  exact ⟨_, rfl⟩

/-- The files that the result of a command names, with a note on them. -/
theorem looks_listed {β : Type} {r : ProcessResult} (h : d → '\x00' ∉ r.out.toList) (keep : String →
    Bool) (message : List String → String) (give : List String → β) : Looks w d (fun _ => True) (do
      let files ← Session.ofExcept (resolved (← MonadState.get) ((outputLines r.out).filter keep))
      c.note (message files)
      return give files) := by
  refine .get_bind (.bind (P := fun _ => True) (.ofExcept (fun _ _ => trivial) fun hcond => ?_)
    fun files _ => ?_) fun _ => rfl
  · exact resolved_ok (h hcond) keep
  · exact (c.looks_note _).bind fun _ _ => .pure trivial

section

variable (hd : d → w.HasGit)

include hd

theorem looks_staged : Looks w d (fun _ => True) c.staged := by
  unfold staged
  refine (looks_runIfAble hd fun _ => by decide).bind fun r hr => ?_
  cases r with
  | some r =>
    exact c.looks_listed (fun h => hr h r rfl) _ (fun files => "Staged files: " ++
      toString files.length ++ " files") id
  | none => exact (c.looks_note _).bind fun _ _ => .pure trivial

theorem looks_compared (title : String) {base : String} (hnull : d → '\x00' ∉ base.toList) :
    Looks w d (fun _ => True) (c.compared title base) := by
  unfold compared
  refine (looks_runIfAble hd fun h => ?_).bind fun r hr => ?_
  · simpa [Handable] using hnull h
  cases r with
  | some r =>
    exact c.looks_listed (fun h => hr h r rfl) _
      (fun files => title ++ " found " ++ toString files.length ++ " changed files") some
  | none => exact .pure trivial

variable {c} (hbase : d → c.HasBase)

include hbase

theorem looks_ensureBase : Looks w d (fun _ => True) c.ensureBase := by
  unfold ensureBase
  refine .ite (fun _ => .pure trivial) fun _ => (c.looks_baseWord hbase 3).bind fun base hnull => ?_
  refine (looks_runIfAble hd fun h => ?_).bind fun r _ => ?_
  · simpa [Handable] using hnull h
  cases r with
  | some _ => exact .pure trivial
  | none =>
    have hbranch : d → '\x00' ∉ (Text.replace base "origin/" "").toList :=
      fun h hmem => (Text.mem_replace (by decide) hmem).elim (hnull h) nofun
    refine (c.looks_note _).bind fun _ _ => (looks_runChecked hd fun h => ?_).bind
      fun fetched hfetched => ?_
    · simpa [Handable] using hbranch h
    cases fetched with
    | ok _ => exact (c.looks_note _).bind fun _ _ => .pure trivial
    | error f =>
      refine .ite (fun hother => .bind (P := fun _ => True) (.throw fun h => ?_) fun _ _ => ?_)
        fun _ => ?_
      · simp [show f.isCommandFailure from hfetched h] at hother
      all_goals exact (c.looks_note _).bind fun _ _ => .pure trivial

theorem looks_againstBase : Looks w d (fun _ => True) c.againstBase := by
  unfold againstBase
  refine (c.looks_note _).bind fun _ _ => (looks_ensureBase hd hbase).bind
    fun there _ => .ite (fun _ => ?_) fun _ => ?_
  · exact (c.looks_note _).bind fun _ _ => .pure trivial
  · have hshown : d → '\x00' ∉ (c.base.shown ++ "...HEAD").toList := by
      intro h
      obtain ⟨b, hb, hnull⟩ := hbase h
      rw [hb, Datum.shown, String.toList_append, mem_append, not_or]
      exact ⟨hnull, by decide⟩
    refine (c.looks_compared hd _ hshown).bind fun r _ => ?_
    cases r with
    | some files => exact .pure trivial
    | none =>
      refine (c.looks_baseWord hbase 4).bind fun base hnull => (c.looks_compared hd _ hnull).bind
        fun r _ => ?_
      cases r with
      | some files => exact .pure trivial
      | none => exact (c.looks_note _).bind fun _ _ => .pure trivial

end

/-- An outcome that remembers the files it gives, and gives some under a condition. -/
structure Outcome.Remembers (d : Prop) (o : Outcome (List String)) : Prop where
  kept : ∀ files, o.1 = .ok files → o.2.files = some files
  given : d → ∃ files, o.1 = .ok files

theorem looks_remember {d' : Prop} {ask : Session (List String)}
    (hask : Looks w d (fun _ => True) ask) :
    Looks w d' (fun o => o.Remembers d ∧ o.2.base = c.base) (c.remember ask) := by
  unfold remember
  refine hask.attempt.bind fun r hr => ?_
  cases r with
  | ok files =>
    exact .pure ⟨⟨fun _ h => congrArg some (Except.ok.inj h), fun _ => ⟨files, rfl⟩⟩, rfl⟩
  | error f => exact .pure ⟨⟨nofun, fun h => nomatch hr.2 h⟩, rfl⟩

/-- **The changed files are given or a fault is, and what is given is remembered**; with git and a
    base branch they are found, whatever git says. -/
theorem looks_get : Looks w True (Outcome.Remembers (w.HasGit ∧ c.HasBase)) c.get := by
  unfold Changes.get
  split
  · rename_i files hfiles
    exact .pure ⟨fun _ h => hfiles.trans (congrArg some (Except.ok.inj h)), fun _ => ⟨files, rfl⟩⟩
  · refine (c.looks_note _).bind fun _ _ => ?_
    split
    · exact (c.looks_remember (c.looks_staged And.left)).mono id fun _ => And.left
    · exact (c.looks_remember (looks_againstBase And.left And.right)).mono id fun _ => And.left
    · refine (c.looks_remember (c.looks_staged (d := w.HasGit ∧ c.HasBase) And.left)).bind
        fun outcome ho => ?_
      split
      · refine (looks_remember _ (looks_againstBase And.left fun h => ?_)).mono id fun _ => And.left
        exact h.2.imp fun b hb => ⟨ho.2.trans hb.1, hb.2⟩
      · exact .pure ho.1

/-! ## §4. Questions in any order. -/

/-- A question about changed files. -/
inductive Question where
  | all
  | one (path : String)
  | among (paths : List String)

/-- The paths that a question is about. -/
def Question.paths : Question → List String
  | .all => []
  | .one path => [path]
  | .among paths => paths

inductive Answer where
  | files (paths : List String)
  | isChanged (changed : Bool)
  deriving DecidableEq

/-- The answer when some files changed. -/
def Question.answer (w : World) (changed : List String) : Question → Answer
  | .all => .files changed
  | .one path => .isChanged (Config.isChanged w changed path)
  | .among paths => .files (paths.filter (Config.isChanged w changed))

/-- Answers a question from the files of an outcome, if there are any, and goes on.  What holds a
    null character is no path. -/
def reply (q : Question) (rest : Changes → Session (Outcome (List Answer))) :
    Outcome (List String) → Session (Outcome (List Answer))
  | (.error f, c) => return (.error f, c)
  | (.ok files, c) => do
    if !q.paths.all Session.isHandable then return (.error .nullPath, c)
    let w ← MonadState.get
    let (answers, c) ← rest c
    return (answers.map (q.answer w files :: ·), c)

/-- Whether a question is refused before the files are looked for, as one about a single path may
    be. -/
def Question.isRefused : Question → Bool
  | .one path => !Session.isHandable path
  | _ => false

/-- Asks some questions, up to the first that is not answered. -/
def askAll (c : Changes) : List Question → Session (Outcome (List Answer))
  | [] => return (.ok [], c)
  | q :: qs => if q.isRefused then return (.error .nullPath, c) else c.get >>= reply q (askAll · qs)

variable {c} {files : List String}

/-- Once the files are known, every question is answered from them. -/
theorem settles_askAll {o : Outcome (List String)} (hget : Settles True w c.get (.ok o))
    (hfiles : o.1 = .ok files) (hkept : o.2.files = some files) {qs : List Question}
    (hqs : ∀ q ∈ qs, Handable q.paths) :
    ∃ c', Settles True w (c.askAll qs) (.ok (.ok (qs.map (Question.answer w files)), c')) := by
  induction qs generalizing c o with
  | nil => exact ⟨c, .pure _⟩
  | cons q qs ih =>
    obtain ⟨_, c₁⟩ := o
    obtain rfl := hfiles
    obtain ⟨hq, hqs⟩ := forall_mem_cons.mp hqs
    -- the list is kept, so that it is asked for once
    have hagain : Settles True w c₁.get (.ok (.ok files, c₁)) := by
      unfold Changes.get
      rw [hkept]
      exact .pure _
    have hpaths : q.paths.all Session.isHandable :=
      all_eq_true.mpr fun p hp => by simpa [Session.isHandable] using hq p hp
    have hasked : q.isRefused = false := by
      cases q with
      | one path => simpa [Question.isRefused, Question.paths] using hpaths
      | _ => rfl
    obtain ⟨c₂, hrest⟩ := ih hagain rfl hkept hqs
    refine ⟨c₂, ?_⟩
    rw [askAll, hasked, if_neg (by decide)]
    refine hget.bind_ok ?_
    unfold reply
    dsimp only
    rw [hpaths, if_neg (by decide)]
    refine .get_bind (hrest.bind_ok (.pure _)) fun _ => ?_
    cases q <;> rfl

/-- **Looking for changes completes if git is there**, in every environment and whatever the
    commands say: a base branch is found unless one is given, and questions in any order are
    answered from the same files.  A base branch that is given and the paths asked about are texts
    without null characters. -/
theorem start_askAll (h : w.HasGit) {base : Datum}
    (hbase : base.truthy = true → ∃ b, base = .text b ∧ '\x00' ∉ b.toList) :
    ∃ files, ∀ questions : List Question, (∀ q ∈ questions, ∀ p ∈ q.paths, '\x00' ∉ p.toList) →
      ∃ c, (start base >>= (·.askAll questions)).verdict w
        = .ok (.ok (questions.map (Question.answer w files)), c) := by
  obtain ⟨r, hstart, hhas, hfound⟩ := looks_start (w := w) base
  obtain ⟨c, rfl⟩ := hfound h
  obtain ⟨s, hget, hremembers, hgiven⟩ := c.looks_get (w := w)
  obtain ⟨o, rfl⟩ := hgiven trivial
  obtain ⟨hkept, hgives⟩ := hremembers o rfl
  obtain ⟨files, hfiles⟩ := hgives ⟨h, hhas c rfl hbase h⟩
  refine ⟨files, fun questions hquestions => ?_⟩
  obtain ⟨c', hall⟩ := settles_askAll hget hfiles (hkept files hfiles) hquestions
  exact ⟨c', (hstart.bind_ok hall).verdict⟩

/-- One file is staged, and every other command fails. -/
def oneStaged : World where
  root := .folder [("a.py", .file ⟨#[]⟩)]
  processes := [(" ".intercalate stagedCommand, some { code := 0, out := "a.py\n" })]

theorem start_askAll_oneStaged : oneStaged.HasGit ∧ ∃ c,
    (start .null >>= (·.askAll [.all, .one "a.py", .among ["b.py", "a.py"]])).verdict oneStaged =
      .ok (.ok [.files ["/a.py"], .isChanged true, .files ["a.py"]], c) := by
  have hgit : oneStaged.HasGit := by
    refine ⟨fun entry hentry args _ => ?_, fun v hv => nomatch hv⟩
    cases mem_singleton.mp hentry
    exact ⟨_, rfl, by decide⟩
  have hbase : Datum.null.truthy = true → ∃ b, Datum.null = .text b ∧ '\x00' ∉ b.toList := nofun
  obtain ⟨files, h⟩ := start_askAll hgit hbase
  obtain ⟨c, hall⟩ := h [.all, .one "a.py", .among ["b.py", "a.py"]] (by decide)
  have hfiles : (((start .null >>= (·.askAll [.all])).verdict oneStaged).toOption.bind
    (·.1.toOption)) =
      some [.files ["/a.py"]] := by decide +kernel
  obtain ⟨c', hfirst⟩ := h [.all] (by decide)
  rw [hfirst] at hfiles
  cases hfiles
  exact ⟨hgit, c, hall.trans (by rfl)⟩

/-- Git is not installed. -/
def withoutGit : World where
  root := .folder []
  processes := (stagedCommand :: ["main", "master", "develop"].map fun b =>
    ["git", "rev-parse", "--verify", "origin/" ++ b]).map fun argv => (" ".intercalate argv, none)

/-- **Without git the context is found, but looking for changes does not start.** -/
theorem start_withoutGit : Context.detect.verdict withoutGit = .ok .unknown ∧
    (start .null).verdict withoutGit = .error (.noProgram "git") := by
  exact ⟨rfl, rfl⟩

end Changes

end AddonAudit
