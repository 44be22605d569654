/-
  AddonAudit.Proofs.Setup.DryRun — a dry run only prints.

  Every step of setting up knows whether it is to be taken or only to be told.  A session only
  prints if the world that it leaves, also after a fault, differs in the printed texts alone: the
  file tree is the same and no command was run.  Each step of a dry run is such a session, and so is
  what is made of them.

  The flag has to stand before the divider `--`.  After it `--dry-run` is a path like any other, and
  the folder of that name is set up.
-/
import AddonAudit.Proofs.Options
import AddonAudit.Proofs.Channel
import AddonAudit.Setup.Command

namespace AddonAudit

/-! ## §1. Sessions that only print. -/

/-- Whether two worlds differ in what was printed alone. -/
def World.Printed (w w' : World) :
    Prop := ∃ out err, w' = w.relog { w.log with out := out, err := err }

instance : Std.Refl World.Printed := ⟨fun w => ⟨w.log.out, w.log.err, rfl⟩⟩

instance : Trans World.Printed World.Printed World.Printed where
  trans := by
    rintro _ _ _ ⟨_, _, rfl⟩ ⟨out, err, rfl⟩
    exact ⟨out, err, rfl⟩

namespace Session

/-- A session that does nothing but print, however it ends. -/
abbrev OnlyPrints {α : Type} (x : Session α) : Prop := Moves World.Printed x

theorem Moves.printLine (s : String) : OnlyPrints (printLine s) := fun _ => ⟨_, _, rfl⟩

theorem Moves.warnLine (s : String) : OnlyPrints (warnLine s) := fun _ => ⟨_, _, rfl⟩

theorem Moves.readText (p : String) : OnlyPrints (readText p) := .get_bind fun _ => .ofExcept _

end Session

namespace Setup

open Session (OnlyPrints)

/-! ## §2. Steps. -/

theorem onlyPrints_tell (icon : Icon) (text : String) : OnlyPrints (tell icon text) := .printLine _

theorem onlyPrints_printTitle (title : String) (details : List String) :
    OnlyPrints (printTitle title details) := by
  unfold printTitle
  refine .bind (.printLine _) fun _ => .bind (.printLine _) fun _ => .bind (.printLine _) fun _ =>
    ?_
  exact .ite (.bind (.forM fun l _ => .printLine l) fun _ => .printLine _) (.pure _)

/-- Copying a file is only told. -/
theorem onlyPrints_copyFile (source target : String) (force : Bool) :
    OnlyPrints (copyFile source target true force) := by
  unfold copyFile
  refine .get_bind fun w => .ite (.bind (onlyPrints_tell _ _) fun _ => .pure _) ?_
  refine .ite (.bind (onlyPrints_tell _ _) fun _ => .pure _) ?_
  rw [if_pos rfl]
  exact .bind (onlyPrints_tell _ _) fun _ => .pure _

/-- A file is looked at and not edited. -/
theorem onlyPrints_editFile (path : String) (replacements : List (String × String)) :
    OnlyPrints (editFile path replacements true) := by
  unfold editFile
  refine .get_bind fun w => .ite (.pure _) (.bind (.readText path) fun text => ?_)
  dsimp only
  rw [Bool.not_true, Bool.and_false, if_neg Bool.false_ne_true]
  exact .pure _

theorem onlyPrints_removeOldFiles (target : String) : OnlyPrints (removeOldFiles target true) := by
  unfold removeOldFiles
  refine .forM fun file _ => .get_bind fun w => .ite ?_ (.pure _)
  rw [if_pos rfl]
  exact onlyPrints_tell _ _

theorem onlyPrints_installHooks (target : String) : OnlyPrints (installHooks target true) :=
  .bind (onlyPrints_tell _ _) fun _ => .pure _

theorem onlyPrints_pinFile (path version : String) : OnlyPrints (pinFile path version true) := by
  unfold pinFile
  refine .get_bind fun w => .ite (.pure _) (.bind (.readText path) fun text => ?_)
  refine .bind (.ofExcept _) fun pinned => .ite (.pure _) ?_
  rw [if_pos rfl]
  exact .bind (onlyPrints_tell _ _) fun _ => .pure _

/-! ## §3. Repositories. -/

theorem onlyPrints_copy {r : Request} (hdry : r.dryRun) (target : String) (file : String × String) :
    OnlyPrints (r.copy target file) := by
  unfold Request.copy
  rw [hdry]
  exact .get_bind fun w => .ite (onlyPrints_copyFile _ _ _) (.bind (onlyPrints_tell _ _)
    fun _ => .pure _)

/-- **A dry run of setting up a repository only prints.** -/
theorem onlyPrints_setUp {r : Request} (hdry : r.dryRun) (path : String) (quiet : Bool) :
    OnlyPrints (r.setUp path quiet) := by
  unfold Request.setUp
  rw [hdry]
  refine .get_bind fun w => .get_bind fun w' => .ite (.bind (onlyPrints_tell _ _)
    fun _ => .pure _) ?_
  refine .ite_bind (onlyPrints_printTitle _ _) (.bind (onlyPrints_removeOldFiles _) fun _ => ?_)
  refine .bind (.mapM fun file _ => onlyPrints_copy hdry _ file) fun copied => .get_bind fun w₁ =>
    ?_
  refine .ite_bind (onlyPrints_editFile _ _).discard (.bind (onlyPrints_installHooks _).discard
    fun _ => ?_)
  exact .ite_bind (.printLine _) (.pure _)

theorem onlyPrints_pinRepository (path version : String) (quiet : Bool) :
    OnlyPrints (pinRepository path version true quiet) := by
  unfold pinRepository
  refine .get_bind fun w => .get_bind fun w' => .ite (.bind (onlyPrints_tell _ _)
    fun _ => .pure _) ?_
  refine .bind (onlyPrints_pinFile _ _) fun inHooks => .bind (onlyPrints_pinFile _ _)
    fun inWorkflow => ?_
  exact .ite_bind (onlyPrints_tell _ _) (.pure _)

theorem onlyPrints_withHooks? (path : String) : OnlyPrints (withHooks? path) := by
  unfold withHooks?
  refine .get_bind fun w => .ite (.bind (onlyPrints_tell _ _) fun _ => .pure _) ?_
  exact .ite (.bind (onlyPrints_tell _ _) fun _ => .pure _) (.pure _)

theorem onlyPrints_reinstallHooks (path : String) (quiet : Bool) :
    OnlyPrints (reinstallHooks path true quiet) := by
  unfold reinstallHooks
  refine .bind (onlyPrints_withHooks? path) fun found => ?_
  cases found with
  | none => exact .pure _
  | some target =>
    dsimp only
    rw [if_pos rfl]
    exact .ite_bind (onlyPrints_tell _ _) (.pure _)

theorem onlyPrints_updateRepositoryHooks (path : String) :
    OnlyPrints (updateRepositoryHooks path true) := by
  unfold updateRepositoryHooks
  refine .bind (onlyPrints_withHooks? path) fun found => ?_
  cases found with
  | none => exact .pure _
  | some target => exact .bind (onlyPrints_tell _ _) fun _ => .pure _

/-- **Work on many repositories only prints** if work on one does. -/
theorem Batch.onlyPrints_run (b : Batch) (file : String) {work : String → Session Bool}
    (hwork : ∀ path, OnlyPrints (work path)) : OnlyPrints (b.run file work) := by
  have hstep : ∀ path, OnlyPrints (b.step work path) := by
    intro path
    unfold Batch.step
    refine .bind (.printLine _) fun _ => .bind (hwork path) fun ok => ?_
    split
    · exact .bind (onlyPrints_tell _ _) fun _ => .pure _
    · exact .pure _
  unfold Batch.run
  refine .get_bind fun w => .ite (.bind (.printLine _) fun _ => .pure _) ?_
  refine .bind (.readText _) fun text => .bind (onlyPrints_printTitle _ _) fun _ => ?_
  refine .bind (.mapM fun path _ => hstep path) fun results => .bind (.printLine _)
    fun _ => .bind (.printLine _) fun _ => ?_
  exact .ite_bind (.printLine _) (.bind (.printLine _) fun _ => .pure _)

/-! ## §4. The command. -/

theorem onlyPrints_refuse (u : Options.Usage) (message : String) : OnlyPrints (u.refuse message) :=
  .bind (.warnLine _) fun _ => .pure _

theorem onlyPrints_onOneOrMany (values : Options.Values) (mode : String) (batch : Batch)
    {quietly loudly : String → Session Bool} (hquietly : ∀ path, OnlyPrints (quietly path))
    (hloudly : ∀ path, OnlyPrints (loudly path)) :
    OnlyPrints (onOneOrMany values mode batch quietly loudly) := by
  unfold onOneOrMany
  split
  · exact batch.onlyPrints_run _ hquietly
  · exact .bind (hloudly _).discard fun _ => .pure _
  · exact onlyPrints_refuse _ _

theorem onlyPrints_setUpOneOrMany {r : Request} (hdry : r.dryRun) (values : Options.Values) :
    OnlyPrints (setUpOneOrMany r values) := by
  unfold setUpOneOrMany
  split
  · exact onlyPrints_refuse _ _
  · exact onlyPrints_refuse _ _
  · exact r.batch.onlyPrints_run _ fun path => onlyPrints_setUp hdry path true
  · exact .bind (onlyPrints_setUp hdry _ false).discard fun _ => .pure _

/-- What stands before the divider among the arguments. -/
def beforeDivider (arguments : List String) : List String := arguments.takeWhile (· != "--")

/-- The command only prints if the flag stands before the divider. -/
theorem onlyPrints_command (toolFolder : String) {arguments : List String}
    (hflag : "--dry-run" ∈ beforeDivider arguments) :
    OnlyPrints (command toolFolder arguments) := by
  unfold command Options.Usage.run
  split
  · rename_i values hread
    have hset : values.isSet "dry_run" := Options.isSet_of_read (by decide) rfl rfl hflag hread
    -- the five modes, each with the flag set
    dsimp only
    rw [hset]
    refine .ite (.bind (Session.Moves.discard ?_) fun _ => .pure _) ?_
    · exact .bind (onlyPrints_tell _ _) fun _ => .pure _
    refine .ite (onlyPrints_onOneOrMany _ _ _ ?_ ?_) ?_
    · exact fun path => onlyPrints_reinstallHooks path true
    · exact fun path => onlyPrints_reinstallHooks path false
    refine .ite (onlyPrints_onOneOrMany _ _ _ ?_ ?_) ?_
    · exact onlyPrints_updateRepositoryHooks
    · exact onlyPrints_updateRepositoryHooks
    refine .ite (onlyPrints_onOneOrMany _ _ _ ?_ ?_) ?_
    · exact fun path => onlyPrints_pinRepository path _ true
    · exact fun path => onlyPrints_pinRepository path _ false
    exact onlyPrints_setUpOneOrMany hset values
  · exact .pure _
  · exact onlyPrints_refuse _ _
  · exact .throw _

/-- **A dry run has no effect.**  Whatever the file tree, the results of commands and the other
    arguments: if the flag stands before the divider, the command leaves the file tree as it is and
    runs nothing. -/
theorem command_dryRun (toolFolder : String) (arguments : List String) (w : World)
    (hflag : "--dry-run" ∈ beforeDivider arguments) :
    ((command toolFolder arguments).leaves w).root = w.root ∧
      ((command toolFolder arguments).leaves w).log.calls = w.log.calls := by
  obtain ⟨out, err, hw⟩ := onlyPrints_command toolFolder hflag w
  rw [hw]
  exact ⟨rfl, rfl⟩

/-- A template, and a repository of the name of the flag. -/
def namedLikeFlag : World where
  root := .folder [
    ("--dry-run", .folder []),
    ("tool", .folder [("templates", .folder [(".pylintrc", .file ⟨#[]⟩)])])]

/-- With the flag before the divider the repository of that name stays empty. -/
theorem command_dryRun_namedLikeFlag :
    "--dry-run" ∈ beforeDivider ["--dry-run", "--", "--dry-run"] ∧
      ((command "/tool/scripts" ["--dry-run", "--", "--dry-run"]).leaves namedLikeFlag).root
        = namedLikeFlag.root ∧
      ((command "/tool/scripts" ["--dry-run", "--", "--dry-run"]).leaves namedLikeFlag).log.calls
        = [] :=
  ⟨by decide, command_dryRun "/tool/scripts" ["--dry-run", "--",
  "--dry-run"] namedLikeFlag (by decide)⟩

/-- **After the divider the flag is a path**: the repository of that name is set up. -/
theorem command_after_divider : "--dry-run" ∈ ["--", "--dry-run"] ∧
      ((command "/tool/scripts" ["--", "--dry-run"]).leaves namedLikeFlag).log.calls
        = ["pre-commit install @ /--dry-run"] ∧
      namedLikeFlag.holds "/--dry-run/.pylintrc" = false ∧
      ((command "/tool/scripts" ["--", "--dry-run"]).leaves namedLikeFlag).holds
        "/--dry-run/.pylintrc" = true := by
  decide +kernel

end Setup

end AddonAudit
