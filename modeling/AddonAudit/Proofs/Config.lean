/-
  AddonAudit.Proofs.Config — what a configuration remembers decides nothing.

  A configuration remembers the changes that were looked for and the version that was found.  Two
  configurations answer alike in a world when they hold the same settings and give the same answers
  to all that can be asked of them; every step that succeeds leaves a configuration that answers
  like the one before.
-/
import AddonAudit.Proofs.Changes
import AddonAudit.Proofs.Log
import AddonAudit.Proofs.Traversal

namespace AddonAudit.Config

open Session (Settles)
open Traversal (bind_ok_iff)

variable {α β : Type} {w : World} {c c' c'' : Config}

/-! ## §1. What a configuration answers. -/

/-- What is known about changes: what is remembered, or else what looking for them gives. -/
def known (w : World) (c : Config) : Except Fault Changes :=
  match c.changes with
  | some ch => .ok ch
  | none => (Changes.start c.settings.baseBranch).verdict w

/-- The changed files that a configuration tells. -/
def told (w : World) (c : Config) : Except Fault (List String) :=
  (c.known w).bind fun ch => (ch.get.verdict w).bind (·.1)

/-- What a configuration keeps of some things: all of them, or those of changed files. -/
def kept (w : World) (c : Config) (path : α → String) (xs : List α) : Except Fault (List α) :=
  if !c.settings.changedOnly then .ok xs
  else (c.told w).map fun changed => xs.filter fun x => isChanged w changed (path x)

/-- Two configurations that answer alike in a world. -/
structure Alike (w : World) (c c' : Config) : Prop where
  settings : c'.settings = c.settings
  known : (c'.known w).map (fun _ => ()) = (c.known w).map (fun _ => ())
  told : c'.told w = c.told w
  release : ∀ path, (c'.release w path).map Prod.fst = (c.release w path).map Prod.fst

theorem Alike.refl (w : World) (c : Config) : Alike w c c := ⟨rfl, rfl, rfl, fun _ => rfl⟩

theorem Alike.trans (h : Alike w c c') (h' : Alike w c' c'') : Alike w c c'' where
  settings := h'.settings.trans h.settings
  known := h'.known.trans h.known
  told := h'.told.trans h.told
  release path := (h'.release path).trans (h.release path)

/-- Whether it is known what changed, a value being given for it. -/
theorem Alike.known_map (h : Alike w c c') (a : α) :
    (c'.known w).map (fun _ => a) = (c.known w).map fun _ => a := by
  have hunit := congrArg (Except.map fun _ => a) h.known
  cases hk' : c'.known w <;> cases hk : c.known w <;> rw [hk, hk'] at hunit <;> exact hunit

theorem Alike.kept_eq (h : Alike w c c') (path : α → String) (xs : List α) :
    c'.kept w path xs = c.kept w path xs := by
  unfold kept
  rw [h.settings, h.told]

/-- The version that a configuration answers for a path. -/
theorem release_fst (w : World) (c : Config) (path : String) :
    (c.release w path).map Prod.fst = (c.settings.releaseSet w).bind fun set =>
      match set with
      | some v => .ok v
      | none =>
        if path != "" then Release.detect w path
        else match c.found with
          | some v => .ok v
          | none => Release.detect w "" := by
  unfold release
  cases c.settings.releaseSet w with
  | error f => rfl
  | ok set =>
    cases set with
    | some v => rfl
    | none =>
      show Except.map Prod.fst (if path != "" then _ else _) = if path != "" then _ else _
      split
      · cases Release.detect w path <;> rfl
      · cases c.found with
        | some v => rfl
        | none => cases Release.detect w "" <;> rfl

/-! ## §2. Steps that leave a configuration which answers alike. -/

/-- A step under a configuration quietly answers `r` and, if that is a value, leaves a configuration
    which answers alike. -/
def Gives (w : World) (c : Config) (x : Session (Outcome α)) (r : Except Fault α) : Prop :=
  ∃ c', Settles True w x (.ok (r, c')) ∧ ((∃ a, r = .ok a) → Alike w c c')

/-- A session under a configuration has the verdict `r` and, if that is a value, leaves a
    configuration which answers alike. -/
def Leads (quiet : Prop) (w : World) (c : Config) (x : Session (α × Config)) (r : Except Fault α) :
    Prop :=
  ∃ c', x.verdict w = r.map (fun a => (a, c')) ∧ ((∃ a, r = .ok a) → Alike w c c') ∧
    Settles quiet w x (r.map fun a => (a, c'))

variable {quiet : Prop} {r : Except Fault α} {ch : Changes} {x : Session (α × Config)}
    {y : Session (Outcome α)}

theorem Leads.of_settles (h : Settles quiet w x (r.map fun a => (a, c'))) (hc : (∃ a, r = .ok a) →
    Alike w c c') : Leads quiet w c x r := ⟨c', h.verdict, hc, h⟩

theorem Leads.pure (w : World) (c : Config) (a : α) : Leads quiet w c (pure (a, c)) (.ok a) :=
  .of_settles (r := .ok a) (.pure _) fun _ => .refl w c

theorem Leads.of_error {f : Fault} (h : Settles quiet w x (.error f)) :
    Leads quiet w c x (.error f) :=
  ⟨c, h.verdict, fun _ => .refl w c, h⟩

/-- What a session leads to is its verdict without the configuration. -/
theorem Leads.verdict_fst (h : Leads quiet w c x r) : (x.verdict w).map Prod.fst = r := by
  obtain ⟨c', hx, -⟩ := h
  rw [hx]
  cases r <;> rfl

/-- The log does not show in what a session leads to. -/
theorem Leads.relog (h : Leads quiet w c x r) (l : Log) :
    (x.verdict (w.relog l)).map Prod.fst = r := by
  have hfst := h.verdict_fst
  obtain ⟨c', hx, -, hsettles⟩ := h
  rwa [hx, ← Settles.verdict (w := w.relog l) hsettles] at hfst

theorem Leads.of_alike (hc : Alike w c c') (h : Leads quiet w c' x r) : Leads quiet w c x r := by
  obtain ⟨c'', -, hc'', hx⟩ := h
  exact .of_settles hx fun hr => hc.trans (hc'' hr)

theorem Gives.of_alike (hc : Alike w c c') (h : Gives w c' y r) : Gives w c y r := by
  obtain ⟨c'', hx, hc''⟩ := h
  exact ⟨c'', hx, fun hr => hc.trans (hc'' hr)⟩

/-- A step that answers at once. -/
theorem Gives.pure (w : World) (c : Config) (r : Except Fault α) : Gives w c (pure (r, c)) r :=
  ⟨c, .pure _, fun _ => .refl w c⟩

/-- A step followed by a step, the fault of the first one being passed on. -/
theorem Gives.next {k : Outcome α → Session (Outcome β)} {s : α → Except Fault β}
    (h : Gives w c y r) (hpass : ∀ f c', k (.error f, c') = Pure.pure (.error f, c'))
    (hnext : ∀ a c', Alike w c c' → Gives w c' (k (.ok a, c')) (s a)) :
    Gives w c (y >>= k) (r.bind s) := by
  obtain ⟨c', hy, hc⟩ := h
  cases r with
  | error f =>
    refine ⟨c', hy.bind_ok ?_, fun ⟨_, h⟩ => by cases h⟩
    rw [hpass]
    exact .pure _
  | ok a =>
    have hlike := hc ⟨a, rfl⟩
    obtain ⟨c'', hk, hc''⟩ := (hnext a c' hlike).of_alike hlike
    exact ⟨c'', hy.bind_ok hk, hc''⟩

/-- A step followed by a session, the fault of the step being thrown. -/
theorem Gives.bind {k : Outcome α → Session (β × Config)} {s : α → Except Fault β}
    (h : Gives w c y r) (hthrow : ∀ f c', k (.error f, c') = throw f)
    (hnext : ∀ a c', Alike w c c' → Leads True w c' (k (.ok a, c')) (s a)) :
    Leads True w c (y >>= k) (r.bind s) := by
  obtain ⟨c', hy, hc⟩ := h
  cases r with
  | error f =>
    refine .of_error (hy.bind_ok ?_)
    rw [hthrow]
    exact .throw f
  | ok a =>
    have hlike := hc ⟨a, rfl⟩
    obtain ⟨c'', -, hc'', hk⟩ := (hnext a c' hlike).of_alike hlike
    exact .of_settles (hy.bind_ok hk) hc''

/-- A quiet session may be followed by others. -/
theorem Leads.aloud (h : Leads True w c x r) : Leads quiet w c x r := by
  obtain ⟨c', -, hc, hx⟩ := h
  exact .of_settles (fun l => (hx l).imp fun _ h => ⟨fun _ => h.1 trivial, h.2⟩) hc

/-- A session that first looks at the world. -/
theorem Leads.get_bind {k : World → Session (α × Config)} (h : Leads quiet w c (k w) r)
    (hlog : ∀ l, k (w.relog l) = k w) : Leads quiet w c (get >>= k) r := by
  obtain ⟨c', -, hc, hk⟩ := h
  exact .of_settles (hk.get_bind hlog) hc

/-- A session that first settles a value. -/
theorem Leads.ofExcept_bind {e : Except Fault β} {k : β → Session (α × Config)}
    {s : β → Except Fault α} (h : ∀ b, e = .ok b → Leads quiet w c (k b) (s b)) :
    Leads quiet w c (Session.ofExcept e >>= k) (e.bind s) := by
  cases e with
  | ok b => exact h b rfl
  | error f => exact .of_error (.throw f)

/-- A session that first tells something. -/
theorem Leads.after {z : Session β} {b : β} {k : β → Session (α × Config)}
    (hz : Settles quiet w z (.ok b)) (h : Leads quiet w c (k b) r) :
    Leads quiet w c (z >>= k) r := by
  obtain ⟨c', -, hc, hk⟩ := h
  exact .of_settles (hz.bind_ok hk) hc

/-- A session followed by a session. -/
theorem Leads.bind {k : α × Config → Session (β × Config)} {s : α → Except Fault β}
    (h : Leads quiet w c x r) (hnext : ∀ a c', Alike w c c' → Leads quiet w c' (k (a, c')) (s a)) :
    Leads quiet w c (x >>= k) (r.bind s) := by
  obtain ⟨c', -, hc, hx⟩ := h
  cases r with
  | error f => exact .of_error hx.bind_error
  | ok a =>
    have hlike := hc ⟨a, rfl⟩
    obtain ⟨c'', -, hc'', hk⟩ := (hnext a c' hlike).of_alike hlike
    exact .of_settles (hx.bind_ok hk) hc''

/-! ## §3. The steps of a configuration. -/

/-- Remembering what is known changes no answer. -/
theorem alike_remember (h : c.known w = .ok ch) :
    Alike w c { c with changes := some ch } where
  settings := rfl
  known := by rw [h]; rfl
  told := by
    unfold told
    rw [h]
    rfl
  release path := by rw [release_fst, release_fst]

/-- Looking for changes gives what is known. -/
theorem settles_watch (w : World) (c : Config) :
    ∃ c', Settles True w c.watch (.ok (c.known w, c')) ∧
      ∀ ch, c.known w = .ok ch → c' = { c with changes := some ch } := by
  unfold watch known
  cases hch : c.changes with
  | some ch =>
    refine ⟨c, .pure _, fun ch' h => ?_⟩
    injection h with h
    rw [← h, ← hch]
  | none =>
    obtain ⟨r, hstart, -⟩ := Changes.looks_start (w := w) c.settings.baseBranch
    dsimp only
    rw [hstart.verdict]
    cases r with
    | ok ch =>
      refine ⟨{ c with changes := some ch }, hstart.attempt.bind_ok (.pure _), fun ch' h => ?_⟩
      injection h with h
      rw [h]
    | error f => exact ⟨c, hstart.attempt.bind_ok (.pure _), fun ch' h => by cases h⟩

theorem gives_watch (w : World) (c : Config) : Gives w c c.watch (c.known w) := by
  obtain ⟨c', hv, hc'⟩ := c.settles_watch w
  refine ⟨c', hv, ?_⟩
  rintro ⟨ch, hch⟩
  rw [hc' ch hch]
  exact alike_remember hch

/-- What is told is told again once it is remembered. -/
theorem told_remembered {files : List String} (h : ch.files = some files) :
    ({ c with changes := some ch } : Config).told w = .ok files := by
  have hget : ch.get.verdict w = .ok (.ok files, ch) := by
    unfold Changes.get
    rw [h]
    rfl
  show (ch.get.verdict w).bind _ = _
  rw [hget]
  rfl

/-- Remembering the files that are told changes no answer. -/
theorem alike_told {files : List String} (hfiles : ch.files = some files)
    (htold : c.told w = .ok files) : Alike w c { c with changes := some ch } where
  settings := rfl
  known := by
    obtain ⟨_, hknown, -⟩ := bind_ok_iff.mp htold
    rw [hknown]
    rfl
  told := (told_remembered hfiles).trans htold.symm
  release path := by rw [release_fst, release_fst]

theorem gives_changedFiles (w : World) (c : Config) : Gives w c c.changedFiles (c.told w) := by
  obtain ⟨c', hwatch, hc'⟩ := c.settles_watch w
  unfold changedFiles told
  cases hknown : c.known w with
  | error f =>
    rw [hknown] at hwatch
    exact ⟨c', hwatch.bind_ok (.pure _), fun ⟨_, h⟩ => by cases h⟩
  | ok ch =>
    obtain ⟨_, hget, hremembers, hgiven⟩ := ch.looks_get (w := w)
    obtain ⟨⟨r, ch'⟩, rfl⟩ := hgiven trivial
    rw [hknown] at hwatch
    show Gives w c _ ((ch.get.verdict w).bind _)
    rw [hget.verdict]
    refine ⟨{ c' with changes := some ch' }, hwatch.bind_ok (hget.bind_ok (.pure _)), ?_⟩
    rintro ⟨files, hr⟩
    rw [hc' ch hknown]
    refine alike_told ((hremembers _ rfl).kept files hr) ?_
    unfold told
    rw [hknown]
    show (ch.get.verdict w).bind _ = _
    rw [hget.verdict]
    exact hr

/-- **The scope is a function of the world**, whatever was asked before. -/
theorem gives_inScope (w : World) (c : Config) (path : α → String) (xs : List α) :
    Gives w c (c.inScope path xs) (c.kept w path xs) := by
  unfold inScope kept
  split
  · exact Gives.pure w c _
  · refine Gives.next (c.gives_changedFiles w) (fun _ _ => rfl) fun changed c' _ => ?_
    exact ⟨c', .get_bind (.pure _) fun _ => rfl, fun _ => .refl w c'⟩

/-- Looking for the version changes no answer. -/
theorem alike_release {path v : String} (h : c.release w path = .ok (v, c')) : Alike w c c' := by
  obtain ⟨set, hset, h⟩ := bind_ok_iff.mp h
  cases set with
  | some v =>
    cases h
    exact Alike.refl w c
  | none =>
    replace h : (if path != "" then _ else _) = Except.ok (v, c') := h
    split at h
    · obtain ⟨_, -, h⟩ := bind_ok_iff.mp h
      cases h
      exact Alike.refl w c
    · cases hfound : c.found with
      | some _ =>
        rw [hfound] at h
        cases h
        exact Alike.refl w c
      | none =>
        rw [hfound] at h
        obtain ⟨_, hdetected, h⟩ := bind_ok_iff.mp h
        cases h
        refine ⟨rfl, rfl, rfl, fun path => ?_⟩
        rw [release_fst, release_fst, hfound, hdetected]

end AddonAudit.Config
