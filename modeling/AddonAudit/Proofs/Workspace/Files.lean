/-
  AddonAudit.Proofs.Workspace.Files — what paths lead to, before and after a file is written.

  A path is followed name by name over a stack of folders, so that `..` leads back; a tree is
  changed at the settled components of a path.  Both agree: where a path leads is the entry at its
  settled components (`World.get?_of_find`).  A walk goes through folders only, so it is the same
  after a change that keeps folders what they are.
-/
import AddonAudit.Proofs.Text.Utf8
import AddonAudit.Proofs.Workspace.Path

namespace AddonAudit

open List AddonAudit.Path

/-! ## §1. Changing trees. -/

namespace Entry

theorem member?_setMember (n m : String) (e : Entry) (ms : List (String × Entry)) :
    (folder (setMember n e ms)).member? m = if m = n then some e else (folder ms).member? m := by
  show ((setMember n e ms).find? (·.1 == m)).map (·.2)
    = if m = n then some e else (ms.find? (·.1 == m)).map (·.2)
  induction ms with
  | nil =>
    by_cases h : m = n
    · simp [setMember, h]
    · simp [setMember, h, Ne.symm h]
  | cons x ms ih =>
    obtain ⟨k, y⟩ := x
    unfold setMember
    by_cases hnk : n = k
    · subst hnk
      by_cases h : m = n
      · simp [h]
      · simp [h, Ne.symm h]
    · rw [if_neg (by simpa using hnk)]
      split
      · by_cases h : m = n
        · simp [h]
        · simp [h, Ne.symm h]
      · by_cases h : m = n
        · subst h
          rw [find?_cons_of_neg (by simpa using Ne.symm hnk), ih, if_pos rfl, if_pos rfl]
        · by_cases hmk : k = m
          · simp [hmk, h]
          · rw [find?_cons_of_neg (by simpa using hmk), ih, if_neg h, if_neg h,
              find?_cons_of_neg (by simpa using hmk)]

theorem get?_append (r : Entry) (s t : List String) :
    r.get? (s ++ t) = (r.get? s).bind (·.get? t) := by
  induction s generalizing r with
  | nil => rfl
  | cons n s ih =>
    rw [cons_append, get?, get?]
    cases r.member? n with
    | none => rfl
    | some m => exact ih m

theorem get?_put_self (new : Entry) (t : List String) (r : Entry) :
    (put new t r).get? t = some new := by
  induction t generalizing r with
  | nil => rfl
  | cons n t ih =>
    rw [put, get?, member?_setMember, if_pos rfl]
    exact ih _

/-- Whether what a tree holds on the way to a place is also in another one: folders everywhere, and
    what is at the place itself. -/
def Covers (r r' : Entry) (place : List String) : Prop :=
  ∀ q m, r.get? q = some m → m.isFile = false ∨ q = place → ∃ m', r'.get? q = some m' ∧
    m'.isFile = m.isFile

theorem Covers.refl (r : Entry) (place : List String) : r.Covers r place :=
  fun _ m hm _ => ⟨m, hm, rfl⟩

end Entry

/-! ## §2. Walks. -/

/-- A walk that has come to a place: the stack of entries from the root, for the names taken. -/
inductive Stands (r : Entry) : List String → List Entry → Prop
  | root : Stands r [] [r]
  | step {names : List String} {n : String} {e m : Entry} {up : List Entry} :
      Stands r names (e :: up) → e.member? n = some m → n ≠ ".." →
      Stands r (n :: names) (m :: e :: up)

theorem Stands.get? {r e : Entry} {names : List String} {up : List Entry}
    (h : Stands r names (e :: up)) : r.get? names.reverse = some e := by
  generalize hstack : e :: up = stack at h
  induction h generalizing e up with
  | root =>
    cases hstack
    rfl
  | step hbelow hmember hn ih =>
    cases hstack
    rw [reverse_cons, Entry.get?_append, ih rfl]
    simp [Entry.get?, hmember]

/-- Names that a walk follows. -/
def followed (ns : List String) : List String := ns.filter fun s => s != "" && s != "."

theorem followed_skip {n : String} (h : (n == "" || n == ".")) (ns : List String) :
    followed (n :: ns) = followed ns := by
  rw [Bool.or_eq_true, beq_iff_eq, beq_iff_eq] at h
  unfold followed
  rw [filter_cons_of_neg]
  rcases h with rfl | rfl <;> decide

theorem followed_keep {n : String} (h : ¬ (n == "" || n == ".")) (ns : List String) :
    followed (n :: ns) = n :: followed ns := by
  rw [Bool.or_eq_true, not_or, beq_iff_eq, beq_iff_eq] at h
  unfold followed
  rw [filter_cons_of_pos (by simpa using h)]

theorem followed_of_names {ns : List String} (h : ∀ n ∈ ns, IsName n) : followed ns = ns :=
  filter_eq_self.mpr fun n hn => by simp [(h n hn).ne_empty, (h n hn).ne_dot]

/-- One step of a walk out of a folder. -/
theorem followNames_folder (ms : List (String × Entry)) (up : List Entry) (n : String)
    (ns : List String) : followNames (.folder ms :: up) (n :: ns) =
      if n == "" || n == "." then followNames (.folder ms :: up) ns
      else if n == ".." then followNames (if up.isEmpty then [.folder ms] else up) ns
      else match (Entry.folder ms).member? n with
        | some m => followNames (m :: .folder ms :: up) ns
        | none => .error .missing := by
  cases up with
  | nil => rfl
  | cons e up => rfl

theorem followed_cons (n : String) (ns : List String) :
    followed (n :: ns) = followed [n] ++ followed ns := by
  unfold followed
  rw [← filter_append, singleton_append]

section Steps

variable {r r' e e' x : Entry} {ns names : List String} {up up' : List Entry}

/-- **One step of a walk out of a folder** leads to the entry at the next place, or there is
    none. -/
theorem followNames_step {ms : List (String × Entry)} (hs : Stands r names (.folder ms :: up))
    (n : String) : (∃ m up', Stands r ((followed [n]).foldl (pushComponent true) names) (m :: up') ∧
        ∀ ns, followNames (.folder ms :: up) (n :: ns) = followNames (m :: up') ns) ∨
      r.get? ((followed [n]).foldl (pushComponent true) names).reverse = none ∧
        ∀ ns, followNames (.folder ms :: up) (n :: ns) = .error .missing := by
  by_cases hskip : (n == "" || n == ".")
  · rw [followed_skip hskip]
    exact .inl ⟨_, up, hs, fun ns => by rw [followNames_folder, if_pos hskip]⟩
  rw [followed_keep hskip, foldl_cons]
  -- one step up leads to the entry below on the stack, or stays at the root
  by_cases hup : (n == "..")
  · have hnext : ∀ ns, followNames (.folder ms :: up) (n :: ns)
        = followNames (if up.isEmpty then [.folder ms] else up) ns := by
      intro ns
      rw [followNames_folder, if_neg hskip, if_pos hup]
    obtain rfl := beq_iff_eq.mp hup
    cases hs with
    | root => exact .inl ⟨_, _, .root, hnext⟩
    | step hbelow hmember hne =>
      rw [pushComponent_up hne]
      exact .inl ⟨_, _, hbelow, hnext⟩
  · have hne : n ≠ ".." := by simpa using hup
    rw [pushComponent_name hne]
    cases hm : (Entry.folder ms).member? n with
    | some m =>
      exact .inl ⟨m, _, hs.step hm hne, fun ns => by rw [followNames_folder, if_neg hskip,
        if_neg hup, hm]⟩
    | none =>
      refine .inr ⟨?_, fun ns => by rw [followNames_folder, if_neg hskip, if_neg hup, hm]⟩
      show r.get? (n :: names).reverse = none
      rw [reverse_cons, Entry.get?_append, hs.get?]
      simp [Entry.get?, hm]

/-- One step of a walk that can be made, whatever follows it. -/
theorem followNames_step_ok {n : String} (hs : Stands r names (e :: up))
    (hx : followNames (e :: up) (n :: ns) = .ok x) : e.isFile = false ∧
    ∃ m up', Stands r ((followed [n]).foldl (pushComponent true) names) (m :: up') ∧
      ∀ ns', followNames (e :: up) (n :: ns') = followNames (m :: up') ns' := by
  cases e with
  | file b =>
    unfold followNames at hx
    cases hx
  | folder ms =>
    refine ⟨rfl, (followNames_step hs n).resolve_right fun ⟨_, hmissing⟩ => ?_⟩
    rw [hmissing] at hx
    cases hx

/-- **A walk in one tree can be made in another that covers its way**, and both end at the same
    place. -/
theorem followNames_covers (hs : Stands r names (e :: up)) (hs' : Stands r' names (e' :: up'))
    (hx : followNames (e :: up) ns = .ok x)
    (hcovers : r.Covers r' ((followed ns).foldl (pushComponent true) names).reverse) :
    ∃ x', followNames (e' :: up') ns = .ok x' ∧
      r.get? ((followed ns).foldl (pushComponent true) names).reverse = some x ∧
      r'.get? ((followed ns).foldl (pushComponent true) names).reverse = some x' := by
  induction ns generalizing names e e' up up' with
  | nil =>
    cases hx
    exact ⟨e', rfl, hs.get?, hs'.get?⟩
  | cons n ns ih =>
    rw [followed_cons, foldl_append] at hcovers ⊢
    obtain ⟨hfolder, m, up₁, hs₁, hnext⟩ := followNames_step_ok hs hx
    rw [hnext] at hx
    -- where the walk goes on there is a folder in both trees
    obtain ⟨f, hf, hfile⟩ := hcovers _ _ hs.get? (.inl hfolder)
    rw [hs'.get?] at hf
    cases hf
    cases e' with
    | file b => cases hfile.trans hfolder
    | folder ms' =>
      -- the walk ends at a file or goes on through a folder
      have hway : m.isFile = false ∨ ((followed [n]).foldl (pushComponent true) names).reverse
          = ((followed ns).foldl (pushComponent true)
          ((followed [n]).foldl (pushComponent true) names)).reverse := by
        cases ns with
        | nil => exact .inr rfl
        | cons n' ns => exact .inl (followNames_step_ok hs₁ hx).1
      obtain ⟨m', hm', -⟩ := hcovers _ _ hs₁.get? hway
      rcases followNames_step hs' n with ⟨m'', up₁', hs₁', hnext'⟩ | ⟨hnone, -⟩
      · rw [hnext']
        exact ih hs₁ hs₁' hx hcovers
      · rw [hnone] at hm'
        cases hm'

end Steps

/-! ## §3. Line ends. -/

/-- What has unified line ends has no other ones. -/
theorem Text.not_mem_unifyNewlines (cs : List Char) : '\r' ∉ Text.unifyNewlines cs := by
  fun_induction Text.unifyNewlines cs with
  | case1 cs ih => simpa using ih
  | case2 cs h ih => simpa using ih
  | case3 c cs h h' ih =>
    have hc : c ≠ '\r' := by
      intro heq
      subst heq
      exact h' rfl
    simpa [hc.symm] using ih
  | case4 => simp

theorem Text.unifyNewlines_of_not_mem {cs : List Char} (h : '\r' ∉ cs) :
    Text.unifyNewlines cs = cs := by
  fun_induction Text.unifyNewlines cs with
  | case1 cs ih => simp at h
  | case2 cs h' ih => simp at h
  | case3 c cs h' h'' ih =>
    rw [ih fun hmem => h (mem_cons_of_mem c hmem)]
  | case4 => rfl

/-! ## §4. Finding. -/

namespace World

variable {w w' : World} {p : String}

/-- Where a path leads, as a place in the tree. -/
def placeOf (w : World) (p : String) : List String := Path.components (w.resolve p)

variable {x : Entry} {s : String}

/-- What is needed to find a path again in another world. -/
theorem find_of_covers (hcwd : isAbsolute w.cwd) (hsame : w'.cwd = w.cwd) (h : w.find p = .ok x)
    (hcovers : w.root.Covers w'.root (w.placeOf p)) :
    ∃ x', w'.find p = .ok x' ∧ w'.root.get? (w.placeOf p) = some x' := by
  have hplace : w.placeOf p
      = ((followed (pieces (join w.cwd p))).foldl (pushComponent true) []).reverse :=
    components_resolve hcwd p
  unfold find at h ⊢
  split at h
  · cases h
  · rename_i hempty
    rw [if_neg hempty, hsame]
    rw [hplace] at hcovers ⊢
    obtain ⟨x', hx', -, hget⟩ := followNames_covers .root .root h hcovers
    exact ⟨x', hx', hget⟩

/-- **What a path leads to is the entry at its settled components.** -/
theorem get?_of_find (hcwd : isAbsolute w.cwd) (h : w.find p = .ok x) :
    w.root.get? (w.placeOf p) = some x := by
  obtain ⟨x', hx', hget⟩ := find_of_covers hcwd rfl h (Entry.Covers.refl _ _)
  rw [h] at hx'
  cases hx'
  exact hget

/-- A path leads somewhere in a folder only. -/
theorem root_of_find (h : w.find p = .ok x) : ∃ ms, w.root = .folder ms := by
  unfold find at h
  split at h
  · cases h
  · cases hpieces : pieces (join w.cwd p) with
    | nil =>
      have hne := Text.splitWhere_ne_nil (p := (· == '/')) (join w.cwd p).toList
      exact absurd (map_eq_nil_iff.mp hpieces) hne
    | cons n ns =>
      rw [hpieces] at h
      cases hroot : w.root with
      | file b =>
        rw [hroot] at h
        unfold followNames at h
        cases h
      | folder ms => exact ⟨ms, rfl⟩

/-! ## §5. Reading what was written. -/

theorem root_put (w : World) (p : String) (e : Entry) :
    (w.put p e).root = Entry.put e (w.placeOf p) w.root := by
  simp only [put, placeOf]

theorem cwd_put (w : World) (p : String) (e : Entry) : (w.put p e).cwd = w.cwd := by
  simp only [put]

theorem root_remove (w : World) (p : String) :
    (w.remove p).root = Entry.remove (w.placeOf p) w.root := by
  simp only [remove, placeOf]

theorem cwd_remove (w : World) (p : String) : (w.remove p).cwd = w.cwd := by
  simp only [remove]

theorem decode_toUTF8 (s : String) : decode s.toUTF8 = .ok s.toList := by
  unfold decode Text.Encoding.decode
  simp only [Text.decodeUtf8_toUTF8]
  rfl

theorem readText_of_find (h : w.find p = .ok (.file s.toUTF8)) :
    w.readText p = .ok (String.ofList (Text.unifyNewlines s.toList)) := by
  unfold readText readBytes
  rw [h]
  show (decode s.toUTF8).bind _ = _
  rw [decode_toUTF8]
  rfl

/-- What is read from a file has unified line ends. -/
theorem unified_of_readText (h : w.readText p = .ok s) : '\r' ∉ s.toList := by
  unfold readText at h
  cases hbytes : w.readBytes p with
  | error f =>
    rw [hbytes] at h
    cases h
  | ok bytes =>
    rw [hbytes] at h
    replace h : (decode bytes).bind _ = _ := h
    cases hdecode : decode bytes with
    | error f =>
      rw [hdecode] at h
      cases h
    | ok cs =>
      rw [hdecode] at h
      cases h
      rw [String.toList_ofList]
      exact Text.not_mem_unifyNewlines cs

/-- A file that can be read is there. -/
theorem find_of_readText (h : w.readText p = .ok s) : ∃ b, w.find p = .ok (.file b) := by
  unfold readText readBytes at h
  cases hfind : w.find p with
  | error a =>
    rw [hfind] at h
    cases h
  | ok x =>
    rw [hfind] at h
    cases x with
    | file b => exact ⟨b, rfl⟩
    | folder ms => cases h

/-! ## §6. Reading piece by piece. -/

theorem decodeUtf8_of_decode {bytes : List UInt8} {cs : List Char}
    (h : Text.Encoding.utf8.decode bytes = .ok cs) : Text.decodeUtf8 bytes = .ok cs := by
  unfold Text.Encoding.decode at h
  cases hdecode : Text.decodeUtf8 bytes with
  | error f =>
    rw [hdecode] at h
    cases h
  | ok cs' =>
    rw [hdecode] at h
    cases h
    rfl

/-- **Pieces that can all be read make up what is read at once.**  What a piece leaves unfinished
    goes to the next one, so that the pieces read so far end with a whole character. -/
theorem decodeUtf8_of_decodePieces {fuel : Nat} {pending bytes : List UInt8} {cs : List Char}
    (hfuel : bytes.length < fuel) (h : decodePieces .utf8 fuel pending bytes = (cs, none)) :
    Text.decodeUtf8 (pending ++ bytes) = .ok cs := by
  induction fuel generalizing pending bytes cs with
  | zero => exact absurd hfuel (Nat.not_lt_zero _)
  | succ fuel ih =>
    have hsplit : pending ++ bytes = pending ++ bytes.take pieceSize ++ bytes.drop pieceSize := by
      rw [append_assoc, take_append_drop]
    -- a piece that is decoded, and the induction for what is left
    have hfurther {cs₀ : List Char} {first rest : List UInt8} (hbytes : bytes ≠ [])
        (hfirst : Text.decodeUtf8 first = .ok cs₀) (hall : pending ++ bytes = first ++
        (rest ++ bytes.drop pieceSize))
        (hpieces : (cs₀ ++ (decodePieces .utf8 fuel rest (bytes.drop pieceSize)).1,
          (decodePieces .utf8 fuel rest (bytes.drop pieceSize)).2) = (cs, none)) :
        Text.decodeUtf8 (pending ++ bytes) = .ok cs := by
      obtain ⟨hcs, hnone⟩ := Prod.mk.inj hpieces
      have hlength : (bytes.drop pieceSize).length < fuel := by
        have hpos := length_pos_iff.mpr hbytes
        rw [length_drop, pieceSize]
        omega
      rw [hall, ← hcs]
      exact Text.decodeUtf8_append hfirst (ih hlength (Prod.ext rfl hnone))
    unfold decodePieces at h
    dsimp only at h
    cases hdecode : Text.Encoding.utf8.decode (pending ++ bytes.take pieceSize) with
    | ok cs₀ =>
      rw [hdecode] at h
      have hdata := decodeUtf8_of_decode hdecode
      dsimp only at h
      by_cases hbytes : bytes = []
      · subst hbytes
        cases h
        simpa using hdata
      · rw [if_neg (by simpa using hbytes)] at h
        exact hfurther hbytes hdata (by simp) h
    | error u =>
      rw [hdecode] at h
      dsimp only at h
      split at h
      · -- a character that the end of a piece cuts is kept for the next one
        rename_i hunfinished
        split at h
        · rename_i cs₀ hdecode'
          have hbytes : bytes ≠ [] := by
            intro heq
            simp [heq] at hunfinished
          refine hfurther hbytes (decodeUtf8_of_decode hdecode') ?_ h
          rw [hsplit, ← append_assoc, take_append_drop]
        · cases h
      · cases h

/-- **A file that can be read piece by piece is read the same at once.** -/
theorem readText_of_readPieces {cs : List Char} (h : w.readPieces .utf8 p = .ok (cs, none)) :
    w.readText p = .ok (String.ofList (Text.unifyNewlines cs)) := by
  unfold readPieces at h
  unfold readText
  cases hbytes : w.readBytes p with
  | error f =>
    rw [hbytes] at h
    cases h
  | ok bytes =>
    rw [hbytes] at h
    have hdecode := decodeUtf8_of_decodePieces (by omega) (Except.ok.inj h)
    show (decode bytes).bind _ = _
    unfold decode Text.Encoding.decode
    simp only
    rw [nil_append] at hdecode
    rw [hdecode]
    rfl

end World

namespace Session

theorem readText_of_ok {w : World} {p s : String} (h : w.readText p = .ok s) :
    Session.readText p w = .ok s w := by
  show ofExcept (w.readText p) w = _
  rw [h]
  rfl

/-- What is written depends on what is found at the path, and where nothing is, in the folder around
    it. -/
theorem writeBytes_apply (p : String) (bytes : ByteArray) (w : World) :
    writeBytes p bytes w = (match w.find p with
      | .ok (.folder _) => throw (.isFolder p)
      | .ok (.file _) => set (w.put p (.file bytes))
      | .error .notFolder => throw (.notFolder p)
      | .error .missing =>
        match w.find (parent (join w.cwd p)) with
        | .ok (.folder _) => set (w.put p (.file bytes))
        | .ok (.file _) => throw (.notFolder p)
        | .error a => throw (World.absent p a) : Session Unit) w := by
  rfl

/-- What was written was put in its place. -/
theorem writeBytes_eq_ok {w w' : World} {p : String} {bytes : ByteArray}
    (h : writeBytes p bytes w = .ok () w') : w' = w.put p (.file bytes) := by
  rw [writeBytes_apply] at h
  have hput (h : EStateM.Result.ok () (w.put p (.file bytes)) =
    (.ok () w' : EStateM.Result Fault World Unit)) :
      w' = w.put p (.file bytes) := (EStateM.Result.ok.inj h).2.symm
  rcases hfind : w.find p with (_ | _) | (_ | _)
  · rw [hfind] at h
    rcases hparent : w.find (parent (join w.cwd p)) with _ | (_ | _)
    · rw [hparent] at h
      cases h
    · rw [hparent] at h
      cases h
    · rw [hparent] at h
      exact hput h
  · rw [hfind] at h
    cases h
  · rw [hfind] at h
    exact hput h
  · rw [hfind] at h
    cases h

/-- A file that is there is overwritten. -/
theorem writeText_of_find {w : World} {p : String} {b : ByteArray} (h : w.find p = .ok (.file b))
    (s : String) : writeText p s w = .ok () (w.put p (.file s.toUTF8)) := by
  unfold writeText
  rw [writeBytes_apply, h]
  rfl

end Session

end AddonAudit
