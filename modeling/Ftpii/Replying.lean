import Ftpii.Histories
set_option autoImplicit false

/-!
What each handler answers: one final reply, or the announcement of a transfer. No
line break gets into a reply that was not in the line, the directory or a text of
strerror.
-/

namespace Ftpii
open StateProgram Prog CString Scanf

/-! ## Where characters come from -/

theorem Norm.mem_switch {n : Norm} {token : Option Char} {x : Char}
    (h : x ∈ (n.switch token).normalisedPath) : x = '/' ∨ x ∈ n.normalisedPath := by
  unfold Norm.switch at h
  split at h
  · split at h
    · simpa [or_comm] using h
    · exact .inr h
  · split at h
    · exact .inr h
    · split at h <;> exact .inr h
  · split at h
    · exact .inr (List.mem_of_mem_take h)
    · split at h <;> exact .inr h
  · split at h
    · simp only at h
      split at h
      · exact .inr (List.mem_of_mem_take (List.mem_of_mem_take h))
      · rcases List.mem_append.mp h with h | h
        · exact .inr (List.mem_of_mem_take h)
        · exact .inl (by simpa using h)
    · exact .inr h

theorem Norm.mem_step {n : Norm} {token : Option Char} {x : Char}
    (h : x ∈ (n.step token).normalisedPath) :
    x = '/' ∨ x ∈ n.normalisedPath ∨ token = some x := by
  unfold Norm.step at h
  cases token with
  | none => exact (Norm.mem_switch h).imp_right .inl
  | some c =>
    simp only at h
    split at h
    · rcases List.mem_append.mp h with h | h
      · exact (Norm.mem_switch h).imp_right .inl
      · exact .inr (.inr (congrArg some (List.mem_singleton.mp h).symm))
    · exact (Norm.mem_switch h).imp_right .inl

theorem mem_dropSlashes {s : Str} {x : Char} (h : x ∈ dropSlashes s) : x ∈ s := by
  fun_induction dropSlashes s with
  | case1 c cs ih => exact List.mem_cons_of_mem _ (ih h)
  | case2 s _ => exact h

theorem mem_normalise {path : Str} {x : Char} (h : x ∈ normalise path) : x = '/' ∨ x ∈ path := by
  have hfold : ∀ (path : Str) (n : Norm),
      x ∈ (path.foldl (fun (n : Norm) c => n.step (some c)) n).normalisedPath →
      x = '/' ∨ x ∈ n.normalisedPath ∨ x ∈ path := by
    intro path
    induction path with
    | nil => exact fun n h => .inr (.inl h)
    | cons c cs ih =>
      intro n h
      rcases ih _ h with he | hn | hc
      · exact .inl he
      · rcases Norm.mem_step hn with he | hn | hc
        · exact .inl he
        · exact .inr (.inl hn)
        · obtain rfl : c = x := by simpa using hc
          simp
      · simp [hc]
  have hmem := List.mem_reverse.mp (mem_dropSlashes (List.mem_reverse.mp h))
  rcases Norm.mem_step hmem with he | hn | hc
  · exact .inl he
  · rcases hfold path {} hn with he | hn | hp
    · exact .inl he
    · simp at hn
    · exact .inr hp
  · simp at hc

theorem mem_virtualAbspath {cwd path a : Str} {w : World} {x : Char}
    (h : (virtualAbspath cwd path w).1 = some a) (hx : x ∈ a) :
    x = '/' ∨ x ∈ cwd ∨ x ∈ path := by
  have halloc : ∀ (p : Str) (w : World), (normaliseAlloc p w).1 = some a → x = '/' ∨ x ∈ p := by
    intro p w hp
    have hn : normalise p = a := by
      simp only [normaliseAlloc, bind_run, pure_run] at hp
      split at hp
      · simpa using hp
      · simp at hp
    exact mem_normalise (hn ▸ hx)
  simp only [virtualAbspath, ite_run, bind_run, pure_run] at h
  split at h
  · exact (halloc _ _ h).imp_right .inr
  · split at h
    · simp at h
    · split at h
      · exact (halloc _ _ h).imp_right List.mem_append.mp
      · simp at h

/-- A directory change puts no character in the directory but those of the path and '/'. -/
theorem mem_vrtChdir {cwd path : Str} {w : World} {x : Char} (h : x ∈ (vrtChdir cwd path w).1.2) :
    x = '/' ∨ x ∈ cwd ∨ x ∈ path := by
  simp only [vrtChdir, bind_run, ite_run, pure_run] at h
  split at h
  · exact .inr (.inl h)
  · split at h
    · exact .inr (.inl h)
    · cases ha : (virtualAbspath cwd path (vrtStat cwd path w).2).1 with
      | none =>
        rw [ha] at h
        exact .inr (.inl h)
      | some a =>
        rw [ha] at h
        simp only [pure_run] at h
        split at h
        · exact mem_virtualAbspath ha h
        · rcases List.mem_append.mp h with h | h
          · exact mem_virtualAbspath ha h
          · exact .inl (by simpa using h)

theorem mem_split {s : Str} {sep : Char} {n i : Nat} {x : Char} (h : x ∈ (split s sep n).2 i) :
    x ∈ s := by
  have hput : ∀ (p : Split) (c : Char) i, x ∈ (p.put c).result i → x ∈ p.result i ∨ x = c := by
    intro p c i h
    by_cases hi : i = p.numResults - 1
    · simp only [Split.put, hi, Function.update_self, List.mem_append, List.mem_singleton] at h
      exact h.imp_left fun h => hi ▸ List.mem_of_mem_take h
    · simp only [Split.put, Function.update_of_ne hi] at h
      exact .inl h
  have henter : ∀ (p : Split), (p.enter n).result = p.result := by
    intro p
    unfold Split.enter
    split
    · rfl
    · split <;> rfl
  have hstep : ∀ (p : Split) (c : Char) i, x ∈ (p.step sep n c).result i →
      x ∈ p.result i ∨ x = c := by
    intro p c i h
    unfold Split.step at h
    split at h
    · split at h
      · exact .inl h
      · have hp := hput _ _ _ h
        rw [henter] at hp
        split at hp <;> exact hp
    · have hp := hput _ _ _ h
      rw [henter] at hp
      split at hp <;> exact hp
  have hfold : ∀ (s : Str) (p : Split), x ∈ (s.foldl (Split.step sep n) p).result i →
      x ∈ p.result i ∨ x ∈ s := by
    intro s
    induction s with
    | nil => exact fun p h => .inl h
    | cons c cs ih =>
      intro p h
      rcases ih _ h with hp | hc
      · exact (hstep p c i hp).imp_right fun he => by simp [he]
      · exact .inr (List.mem_cons_of_mem _ hc)
  have hfinish : x ∈ (s.foldl (Split.step sep n) {}).result i := by
    unfold split Split.finish at h
    simp only at h
    split at h
    · simp at h
    · split at h
      · by_cases hi : i = (s.foldl (Split.step sep n) {}).numResults - 1
        · rw [hi, Function.update_self] at h
          exact hi ▸ List.mem_of_mem_take h
        · rwa [Function.update_of_ne hi] at h
      · exact h
  simpa using hfold s {} hfinish

theorem mem_argument {cmdLine : Str} {x : Char} (h : x ∈ argument cmdLine) : x ∈ cmdLine :=
  mem_split h

theorem decimal_clean (n : Nat) : '\n' ∉ decimal n := by
  intro h
  have hd := Nat.isDigit_of_mem_toDigits (by decide) (by decide) h
  simp [Char.isDigit] at hd

/-! ## Handlers and their answers -/

variable {clean : Prop} {α : Type}

/-- Nothing is said, and what a reply may echo gets no line break if the premises for that hold. -/
structure Silent (clean : Prop) (s s' : Session) : Prop where
  conn : s'.client.conn = s.client.conn
  hist : s'.world.hist = s.world.hist
  texts : s'.world.strerror = s.world.strerror
  callback : s'.client.dataCallback = s.client.dataCallback
  cwd : clean → '\n' ∉ s.client.cwd → '\n' ∉ s'.client.cwd

theorem silent_frame : Frame (Silent clean) where
  refl _ := ⟨rfl, rfl, rfl, rfl, fun _ => id⟩
  trans h h' := ⟨h'.conn.trans h.conn, h'.hist.trans h.hist, h'.texts.trans h.texts,
    h'.callback.trans h.callback, fun hp hc => h'.cwd hp (h.cwd hp hc)⟩

theorem silent_sockets (c : Client) : UsesSockets (At (Silent clean) c) where
  toFrame := frameAt silent_frame c
  answers _ _ _ := ⟨rfl, rfl, rfl, rfl, fun _ => id⟩
  shrink _ := ⟨rfl, rfl, rfl, rfl, fun _ => id⟩
  flags _ _ _ _ _ _ := ⟨rfl, rfl, rfl, rfl, fun _ => id⟩
  write _ _ _ _ _ _ _ _ := ⟨rfl, rfl, rfl, rfl, fun _ => id⟩
  opened _ _ _ := ⟨rfl, rfl, rfl, rfl, fun _ => id⟩
  bound _ _ _ _ _ := ⟨rfl, rfl, rfl, rfl, fun _ => id⟩
  listening _ _ _ _ := ⟨rfl, rfl, rfl, rfl, fun _ => id⟩
  closed _ _ := ⟨rfl, rfl, rfl, rfl, fun _ => id⟩
  waits _ _ _ := ⟨rfl, rfl, rfl, rfl, fun _ => id⟩
  connects _ _ _ := ⟨rfl, rfl, rfl, rfl, fun _ => id⟩
  received _ _ _ _ _ := ⟨rfl, rfl, rfl, rfl, fun _ => id⟩

theorem silent_streams (c : Client) : UsesStreams (At (Silent clean) c) where
  toFrame := frameAt silent_frame c
  answers _ _ _ := ⟨rfl, rfl, rfl, rfl, fun _ => id⟩
  errno _ _ := ⟨rfl, rfl, rfl, rfl, fun _ => id⟩
  disk _ _ := ⟨rfl, rfl, rfl, rfl, fun _ => id⟩
  renamed _ _ _ := ⟨rfl, rfl, rfl, rfl, fun _ => id⟩
  opened _ _ := ⟨rfl, rfl, rfl, rfl, fun _ => id⟩
  stream _ _ _ _ _ _ := ⟨rfl, rfl, rfl, rfl, fun _ => id⟩
  close _ _ _ _ := ⟨rfl, rfl, rfl, rfl, fun _ => id⟩

theorem silent_devices (c : Client) : UsesDevices (At (Silent clean) c) where
  toFrame := frameAt silent_frame c
  answers _ _ _ := ⟨rfl, rfl, rfl, rfl, fun _ => id⟩
  devices _ _ := ⟨rfl, rfl, rfl, rfl, fun _ => id⟩

theorem silent_update {f : Client → Client} (hc : ∀ c, (f c).conn = c.conn)
    (hcb : ∀ c, (f c).dataCallback = c.dataCallback) (hcwd : ∀ c, (f c).cwd = c.cwd) :
    Keeps (Silent clean) (update f) := fun _ => ⟨hc _, rfl, rfl, hcb _, fun _ h => (hcwd _).symm ▸ h⟩

theorem silent_client : Keeps (Silent clean) client := .gets silent_frame _

/-- What may be echoed to the client has no line break. -/
structure Session.Clean (s : Session) : Prop where
  cwd : '\n' ∉ s.client.cwd
  texts : ∀ e, '\n' ∉ s.world.strerror e

/-- The answer to a line: the events, whether a transfer is now under way, and the handler's
result. Texts have no line break if the premises for that hold. -/
inductive Answer (clean : Prop) : List Event → Bool → Int → Prop where
  | final (code : Nat) (text : Str) (r result : Int) : 200 ≤ code → code < 1000 →
      (clean → '\n' ∉ text) → Answer clean [.reply code text r] false result
  | refused (r : Int) : r < 0 → Answer clean [.reply 150 "Transferring data.".toList r] false r
  | unprepared (r q r' : Int) : Answer clean [.reply 150 "Transferring data.".toList r,
      .noDataSocket q,
      .reply 520 "Closing data connection, error occurred during transfer.".toList r'] false r'
  | pending (r result : Int) : 0 ≤ result →
      Answer clean [.reply 150 "Transferring data.".toList r] true result

/-- A session from a line to its answer. -/
structure Answered (clean : Prop) (s : Session) (r : Int) (t : Session) : Prop where
  conn : t.client.conn = s.client.conn
  said : ∃ es, t.story = s.story ++ es ∧ Answer clean es t.client.dataCallback.isSome r
  cwd : clean → '\n' ∉ t.client.cwd

/-- The handler answers once wherever no transfer is under way. -/
def AnswersOnce (clean : Prop) (m : Ses Int) : Prop :=
  ∀ s : Session, s.client.dataCallback = none → (clean → s.Clean) → Answered clean s (m s).1 (m s).2

section Once

theorem Session.Clean.silent {s t : Session} (hc : clean) (h : s.Clean) (hs : Silent clean s t) :
    t.Clean := ⟨hs.cwd hc h.cwd, by simpa [hs.texts] using h.texts⟩

theorem Answered.after {s t u : Session} {r : Int} (h : Silent clean s t) (ht : Answered clean t r u) :
    Answered clean s r u := by
  obtain ⟨es, he, ha⟩ := ht.said
  refine ⟨ht.conn.trans h.conn, ⟨es, ?_, ha⟩, ht.cwd⟩
  rw [he, Session.story, Session.story, h.hist, h.conn]

theorem Answered.before {s t u : Session} {r : Int} (ht : Answered clean s r t) (h : Silent clean t u) :
    Answered clean s r u := by
  obtain ⟨es, he, ha⟩ := ht.said
  refine ⟨h.conn.trans ht.conn, ⟨es, ?_, h.callback ▸ ha⟩, fun hc => h.cwd hc (ht.cwd hc)⟩
  rw [← he, Session.story, Session.story, h.hist, h.conn]

namespace AnswersOnce

theorem bind {m : Ses α} {f : α → Ses Int} (hm : Keeps (Silent clean) m) (hf : ∀ a, AnswersOnce clean (f a)) :
    AnswersOnce clean (m >>= f) := fun s hcb hc =>
  have ht := hm s
  .after ht (hf _ _ (ht.callback.trans hcb) fun h => (hc h).silent h ht)

theorem ite {c : Prop} [Decidable c] {m k : Ses Int} (hm : AnswersOnce clean m) (hk : AnswersOnce clean k) :
    AnswersOnce clean (if c then m else k) := by
  split
  · exact hm
  · exact hk

theorem then_ {m : Ses Int} {k : Int → Ses Int} (hm : AnswersOnce clean m)
    (hk : ∀ r, Keeps (Silent clean) (k r)) (hr : ∀ r s, (k r s).1 = r) : AnswersOnce clean (m >>= k) := by
  intro s hcb hc
  rw [bind_run, hr]
  exact (hm s hcb hc).before (hk _ _)

end AnswersOnce

/-- A final reply answers the line, whatever the handler makes of its result. -/
theorem writeReply_answered {code : Nat} (hlo : 200 ≤ code) (hhi : code < 1000) {msg : Str}
    (hm : clean → '\n' ∉ msg) {s : Session} (hcb : s.client.dataCallback = none)
    (hc : clean → s.Clean) (result : Int) : Answered clean s result (writeReply code msg s).2 := by
  refine ⟨rfl, ⟨_, writeReply_story code msg s, ?_⟩, fun h => (hc h).cwd⟩
  have hnone : (writeReply code msg s).2.client.dataCallback = none := hcb
  rw [hnone]
  exact .final code msg _ _ hlo hhi hm

theorem writeReply_once {code : Nat} (hlo : 200 ≤ code) (hhi : code < 1000) {msg : Str}
    (hm : clean → '\n' ∉ msg) : AnswersOnce clean (writeReply code msg) := fun _ hcb hc =>
  writeReply_answered hlo hhi hm hcb hc _

theorem replyErrno_once : AnswersOnce clean replyErrno := by
  intro s hcb hc
  exact @writeReply_once clean 550 (by decide) (by decide) _
    (fun h => (hc h).texts s.world.errno) s hcb hc

theorem fixedReply_once {code : Nat} {msg : Str}
    (h : (200 ≤ code ∧ code < 1000) ∧ '\n' ∉ msg) : AnswersOnce clean (writeReply code msg) :=
  writeReply_once h.1.1 h.1.2 fun _ => h.2

theorem syntaxError_once : AnswersOnce clean syntaxError := fixedReply_once (by decide)

theorem replyOr_once {c : Prop} [Decidable c] {code : Nat} {msg : Str}
    (h : (200 ≤ code ∧ code < 1000) ∧ '\n' ∉ msg) {m : Ses Int} (hm : AnswersOnce clean m) :
    AnswersOnce clean (if c then writeReply code msg else m) :=
  .ite (fixedReply_once h) hm

theorem os_silent {m : Os α} (h : ∀ c, Keeps (At (Silent clean) c) m) : Keeps (Silent clean) (os m) := os_keeps h

theorem osGets_silent (f : World → α) : Keeps (Silent clean) (os (Prog.gets f)) :=
  os_silent fun c => .gets (frameAt silent_frame c) f

/-! ### Handlers that only reply -/

theorem ftpUser_once (username : Str) : AnswersOnce clean (ftpUser username) :=
  fixedReply_once (by decide)

theorem ftpPass_once (attempt : Str) : AnswersOnce clean (ftpPass attempt) :=
  .bind (osGets_silent _) fun _ => .ite
    (.bind (silent_update (fun _ => rfl) (fun _ => rfl) fun _ => rfl) fun _ =>
      fixedReply_once (by decide))
    (fixedReply_once (by decide))

theorem closePassiveSocket_silent : Keeps (Silent clean) closePassiveSocket :=
  closePassiveSocket_keeps silent_sockets (fun _ _ => ⟨rfl, rfl, rfl, rfl, fun _ => id⟩) silent_frame

theorem ftpRein_once (rest : Str) : AnswersOnce clean (ftpRein rest) := by
  have hroot : '\n' ∉ ['/'] := by decide
  exact .bind closePassiveSocket_silent fun _ =>
    .bind (fun _ => ⟨rfl, rfl, rfl, rfl, fun _ _ => hroot⟩) fun _ => fixedReply_once (by decide)

theorem ftpQuit_once (rest : Str) : AnswersOnce clean (ftpQuit rest) := fun _ hcb hc =>
  @writeReply_answered clean 221 (by decide) (by decide) _ (fun _ => by decide) _ hcb hc _

theorem ftpType_once (rest : Str) : AnswersOnce clean (ftpType rest) := by
  have hword : ∀ name : Str, '\n' ∉ fold name → ∀ word, caseEq name word = true → '\n' ∉ word := by
    intro name hname word hw hmem
    have hf : fold name = fold word := caseEq_iff.mp hw
    exact hname (hf ▸ List.mem_map_of_mem (f := Char.toLower) hmem)
  simp only [ftpType]
  refine .ite syntaxError_once ?_
  split
  · rename_i h
    refine .bind (silent_update (fun _ => rfl) (fun _ => rfl) fun _ => rfl) fun _ =>
      writeReply_once (by decide) (by decide) fun _ => ?_
    have hclean : '\n' ∉ (split rest ' ' 1).2 0 := by
      simp only [Bool.or_eq_true, Bool.and_eq_true] at h
      rcases h with ⟨h, -⟩ | ⟨h, -⟩
      · exact hword _ (by decide) _ h
      · exact hword _ (by decide) _ h
    simp [hclean]
  · exact syntaxError_once

theorem ftpMode_once (rest : Str) : AnswersOnce clean (ftpMode rest) :=
  replyOr_once (by decide) syntaxError_once

theorem ftpPwd_run (rest : Str) (s : Session) : ftpPwd rest s =
    writeReply 257 (quoted s.client.cwd ++ " is current directory.".toList) s := by
  rw [ftpPwd, bind_run, client_run]

theorem ftpPwd_once (rest : Str) : AnswersOnce clean (ftpPwd rest) := by
  intro s hcb hc
  rw [ftpPwd_run]
  refine writeReply_once (by decide) (by decide) (fun h => ?_) s hcb hc
  have hcwd := (hc h).cwd
  simp [quoted, hcwd]

theorem ftpRnfr_once (path : Str) : AnswersOnce clean (ftpRnfr path) :=
  .bind (silent_update (fun _ => rfl) (fun _ => rfl) fun _ => rfl) fun _ =>
    fixedReply_once (by decide)

theorem ftpRest_once (offsetStr : Str) : AnswersOnce clean (ftpRest offsetStr) := by
  unfold ftpRest
  split
  · exact syntaxError_once
  · refine .ite syntaxError_once <|
      .bind (silent_update (fun _ => rfl) (fun _ => rfl) fun _ => rfl) fun _ =>
        writeReply_once (by decide) (by decide) fun _ => ?_
    simp [decimal_clean]

/-! ### Handlers that work on paths and devices -/

theorem mem_vrtChdir_clean {cwd path : Str} {w : World} (hc : '\n' ∉ cwd) (hp : '\n' ∉ path) :
    '\n' ∉ (vrtChdir cwd path w).1.2 := by
  intro h
  rcases mem_vrtChdir h with he | h | h
  · exact absurd he (by decide)
  · exact hc h
  · exact hp h

theorem changeDirectory_once {path msg : Str} (hp : clean → '\n' ∉ path) (hm : '\n' ∉ msg) :
    AnswersOnce clean (changeDirectory path msg) := by
  intro s hcb hc
  let r := vrtChdir s.client.cwd path s.world
  have hw : Silent clean s ⟨s.client, r.2⟩ :=
    vrtChdir_keeps (silent_streams s.client).toLookups s.client.cwd path s.world
  let t : Session := ⟨{ s.client with cwd := r.1.2 }, r.2⟩
  have hrun : changeDirectory path msg s =
      (if r.1.1 = 0 then writeReply 250 msg else replyErrno) t := rfl
  have ht : Silent clean s t :=
    ⟨rfl, hw.hist, hw.texts, rfl, fun h hcwd => mem_vrtChdir_clean hcwd (hp h)⟩
  rw [hrun]
  exact .after ht (AnswersOnce.ite (fixedReply_once ⟨by decide, hm⟩) replyErrno_once t hcb
    fun h => (hc h).silent h ht)

theorem ftpCwd_once {path : Str} (hp : clean → '\n' ∉ path) : AnswersOnce clean (ftpCwd path) :=
  changeDirectory_once hp (by decide)

theorem ftpCdup_once (rest : Str) : AnswersOnce clean (ftpCdup rest) :=
  changeDirectory_once (fun _ => by decide) (by decide)

theorem ftpDele_once (path : Str) : AnswersOnce clean (ftpDele path) :=
  .bind silent_client fun _ =>
    .bind (os_silent fun c => vrtUnlink_keeps (silent_streams c).toUsesPaths _ _) fun _ =>
      replyOr_once (by decide) replyErrno_once

/-- MKD echoes the path it made. -/
theorem ftpMkd_once {path : Str} (hp : clean → '\n' ∉ path) : AnswersOnce clean (ftpMkd path) := by
  by_cases hpe : path = []
  · simpa only [ftpMkd, if_pos hpe] using syntaxError_once
  intro s hcb hc
  let m := vrtMkdir s.client.cwd path s.world
  let r := vrtChdir s.client.cwd path m.2
  have hm : Silent clean s ⟨s.client, m.2⟩ :=
    vrtMkdir_keeps (silent_streams s.client).toLookups s.client.cwd path s.world
  have hr : Silent clean ⟨s.client, m.2⟩ ⟨s.client, r.2⟩ :=
    vrtChdir_keeps (silent_streams s.client).toLookups s.client.cwd path m.2
  have hrun : ftpMkd path s = if m.1 = 0
      then writeReply 257 (quoted r.1.2 ++ " directory created.".toList) ⟨s.client, r.2⟩
      else replyErrno ⟨s.client, m.2⟩ := by
    simp +instances only [ftpMkd, if_neg hpe, bind_run, client_run, os_run, ite_run, m, r]
  rw [hrun]
  split
  · refine .after (silent_frame.trans hm hr) (writeReply_once (by decide) (by decide)
      (fun h => ?_) ⟨s.client, r.2⟩ hcb fun h => ((hc h).silent h hm).silent h hr)
    have hpath := mem_vrtChdir_clean (w := m.2) (hc h).cwd (hp h)
    simp [quoted, r, hpath]
  · exact .after hm (replyErrno_once ⟨s.client, m.2⟩ hcb fun h => (hc h).silent h hm)

theorem ftpSize_once (path : Str) : AnswersOnce clean (ftpSize path) :=
  .bind silent_client fun _ =>
    .bind (os_silent fun c => vrtStat_keeps (silent_streams c).toLookups _ _) fun _ =>
      .ite (writeReply_once (by decide) (by decide) fun _ => decimal_clean _) replyErrno_once

theorem ftpRnto_once (path : Str) : AnswersOnce clean (ftpRnto path) := by
  refine .bind silent_client fun c => .ite (fixedReply_once (by decide)) <|
    .bind (os_silent fun c => vrtRename_keeps (silent_streams c).toUsesPaths _ _ _) fun _ => ?_
  exact .then_ (replyOr_once (by decide) replyErrno_once)
    (fun r => .bind silent_frame (silent_update (fun _ => rfl) (fun _ => rfl) fun _ => rfl)
      fun _ => .pure silent_frame _) fun _ _ => rfl

theorem ftpSiteLoader_once (rest : Str) : AnswersOnce clean (ftpSiteLoader rest) :=
  .then_ (fixedReply_once (by decide))
    (fun _ => .bind silent_frame (fun _ => ⟨rfl, rfl, rfl, rfl, fun _ => id⟩) fun _ =>
      .pure silent_frame _) fun _ _ => rfl

theorem ftpSitePasswd_once (newPassword : Str) : AnswersOnce clean (ftpSitePasswd newPassword) :=
  .bind (fun _ => ⟨rfl, rfl, rfl, rfl, fun _ => id⟩) fun _ => fixedReply_once (by decide)

theorem ftpSiteNopasswd_once (rest : Str) : AnswersOnce clean (ftpSiteNopasswd rest) :=
  .bind (fun _ => ⟨rfl, rfl, rfl, rfl, fun _ => id⟩) fun _ => fixedReply_once (by decide)

theorem ftpSiteEject_once (rest : Str) : AnswersOnce clean (ftpSiteEject rest) :=
  .bind (os_silent fun c => dvdEject_keeps (silent_devices c).drives fun _ => trivial) fun _ =>
    replyOr_once (by decide) (fixedReply_once (by decide))

theorem ftpSiteMount_once (path : Str) : AnswersOnce clean (ftpSiteMount path) :=
  .bind (os_silent fun c => mount_keeps (silent_devices c).drives (fun _ => trivial) _) fun _ =>
    replyOr_once (by decide) (fixedReply_once (by decide))

theorem ftpSiteUnmount_once (path : Str) : AnswersOnce clean (ftpSiteUnmount path) :=
  .bind (os_silent fun c => unmount_keeps (silent_devices c).drives (fun _ => trivial) _) fun _ =>
    replyOr_once (by decide) (fixedReply_once (by decide))

theorem ftpSiteLoad_once (path : Str) : AnswersOnce clean (ftpSiteLoad path) := by
  refine .bind silent_client fun _ =>
    .bind (os_silent fun c => vrtFopen_keeps (silent_streams c) _ _ _) fun o => ?_
  cases o with
  | none => exact replyErrno_once
  | some f =>
    refine .bind (os_silent fun c => ?_) fun _ =>
      .bind (os_silent fun c => runCleanup_keeps (silent_streams c).toClosing _ trivial) fun _ =>
        fixedReply_once (by decide)
    have hF : Frame (At (Silent clean) c) := frameAt silent_frame c
    refine .bind hF (toRealPath_keeps (silent_streams c).toLookups _ _) fun o => ?_
    cases o with
    | none => exact .pure hF _
    | some _ =>
      exact loadFromFile_keeps (silent_streams c).toStreaming (fun _ => ⟨rfl, rfl, rfl, rfl, fun _ => id⟩)
        trivial

/-! ### Handlers that set up sockets -/

theorem decimals_clean : ∀ ns : List Nat, '\n' ∉ commas ns
  | [] => by simp [commas]
  | [n] => decimal_clean n
  | n :: m :: ns => by
    have hrest := decimals_clean (m :: ns)
    simp [commas, decimal_clean, hrest]

theorem passiveReply_eq (ip port : Nat) : passiveReply ip port =
    "Entering Passive Mode (".toList ++
      commas [ip / 2 ^ 24 % 256, ip / 2 ^ 16 % 256, ip / 2 ^ 8 % 256, ip % 256,
        port / 256 % 256, port % 256] ++ ").".toList := rfl

theorem passiveReply_once (ip port : Nat) :
    AnswersOnce clean (writeReply 227 (passiveReply ip port)) := by
  have hopen : '\n' ∉ "Entering Passive Mode (".toList := by decide
  have hclose : '\n' ∉ ").".toList := by decide
  refine writeReply_once (by decide) (by decide) fun _ h => ?_
  rw [passiveReply_eq, List.mem_append, List.mem_append] at h
  rcases h with (h | h) | h
  · exact hopen h
  · exact decimals_clean _ h
  · exact hclose h

theorem ftpPasv_once (rest : Str) : AnswersOnce clean (ftpPasv rest) := by
  have hclose : Keeps (Silent clean) closePassiveSocket := closePassiveSocket_silent
  refine .bind hclose fun _ => .bind (os_silent fun c => netSocket_keeps (silent_sockets c)) fun _ =>
    .bind (silent_update (fun _ => rfl) (fun _ => rfl) fun _ => rfl) fun _ =>
    .ite (fixedReply_once (by decide)) ?_
  refine .bind (os_silent fun c => setBlocking_keeps (silent_sockets c).toSends trivial _) fun _ =>
    .bind (fun _ => ⟨rfl, rfl, rfl, rfl, fun _ => id⟩) fun _ =>
    .bind (os_silent fun c => netBind_keeps (silent_sockets c).toTalks _ _) fun _ => .ite ?_ ?_
  · exact .bind hclose fun _ => fixedReply_once (by decide)
  · refine .bind (os_silent fun c => netListen_keeps (silent_sockets c).toTalks _) fun _ => .ite ?_ ?_
    · exact .bind hclose fun _ => fixedReply_once (by decide)
    · exact .bind (os_silent fun c =>
        netGethostip_keeps (frameAt silent_frame c) (silent_sockets c).answers) fun _ =>
          passiveReply_once _ _

theorem ftpPort_once (portspec : Str) : AnswersOnce clean (ftpPort portspec) := by
  unfold ftpPort
  split
  · split
    · exact syntaxError_once
    · exact .bind closePassiveSocket_silent fun _ =>
        .bind (silent_update (fun _ => rfl) (fun _ => rfl) fun _ => rfl) fun _ =>
          fixedReply_once (by decide)
  · exact syntaxError_once

/-! ### Transfers -/

theorem prepareDataConnectionPassive_silent : Keeps (Silent clean) prepareDataConnectionPassive :=
  .bind silent_frame (silent_update (fun _ => rfl) (fun _ => rfl) fun _ => rfl) fun _ =>
    .pure silent_frame _

theorem prepareDataConnectionActive_silent : Keeps (Silent clean) prepareDataConnectionActive := by
  have hF : Frame (Silent clean) := silent_frame
  refine .bind hF (os_silent fun c => netSocket_keeps (silent_sockets c)) fun _ =>
    .ite (.pure hF _) ?_
  refine .bind hF (os_silent fun c => setBlocking_keeps (silent_sockets c).toSends trivial _)
    fun _ => .bind hF (os_silent fun c => netBind_keeps (silent_sockets c).toTalks _ _) fun _ => .ite ?_ ?_
  · exact .bind hF (os_silent fun c => netClose_keeps (silent_sockets c) _) fun _ => .pure hF _
  · exact .bind hF (silent_update (fun _ => rfl) (fun _ => rfl) fun _ => rfl) fun _ => .pure hF _

def prepareSocket : Ses Int := do
  let c ← client
  if 0 ≤ c.passiveSocket then prepareDataConnectionPassive else prepareDataConnectionActive

theorem prepareSocket_silent : Keeps (Silent clean) prepareSocket :=
  .bind silent_frame silent_client fun _ =>
    .ite prepareDataConnectionPassive_silent prepareDataConnectionActive_silent

def startTransfer (callback : Callback) (arg : Nat) (cleanup : Cleanup) (result : Int) : Ses Int := do
  let now ← os gettime
  update fun c =>
    { c with
      dataConnectionConnected := false
      dataCallback := some callback
      dataConnectionCallbackArg := some arg
      dataConnectionCleanup := some cleanup
      dataConnectionTimer := now + secsToTicks 30 }
  pure result

theorem prepareDataConnection_run (callback : Callback) (arg : Nat) (cleanup : Cleanup)
    (s : Session) : prepareDataConnection callback arg cleanup s =
      let r := writeReply 150 "Transferring data.".toList s
      if r.1 < 0 then (r.1, r.2)
      else
        let q := prepareSocket r.2
        if q.1 < 0 then transferError (q.2.emitted (.noDataSocket q.1))
        else startTransfer callback arg cleanup q.1 q.2 := by
  have he : prepareDataConnection callback arg cleanup = (do
      let result ← writeReply 150 "Transferring data.".toList
      if result < 0 then pure result
      else do
        let result ← prepareSocket
        if result < 0 then do
          emit (.noDataSocket result)
          transferError
        else startTransfer callback arg cleanup result) := rfl
  rw [he]
  simp only [bind_run, ite_run, pure_run, emit_run]

theorem writeReply_client (code : Nat) (text : Str) (s : Session) :
    (writeReply code text s).2.client = s.client := by
  rw [writeReply_run]

theorem transferError_story (s : Session) : (transferError s).2.story = s.story ++
    [Event.reply 520 "Closing data connection, error occurred during transfer.".toList
      (transferError s).1] := by
  unfold transferError
  rw [writeReply_story]

theorem transferError_client (s : Session) : (transferError s).2.client = s.client := by
  unfold transferError
  rw [writeReply_client]

theorem prepareDataConnection_once (callback : Callback) (arg : Nat) (cleanup : Cleanup) :
    AnswersOnce clean (prepareDataConnection callback arg cleanup) := by
  intro s hcb hc
  rw [prepareDataConnection_run]
  have hr := writeReply_story 150 "Transferring data.".toList s
  have hrclient := writeReply_client 150 "Transferring data.".toList s
  generalize writeReply 150 "Transferring data.".toList s = r at hr hrclient ⊢
  let q := prepareSocket r.2
  have hrcb : r.2.client.dataCallback = none := by rw [hrclient, hcb]
  have hrconn : r.2.client.conn = s.client.conn := by rw [hrclient]
  have hrcwd : clean → '\n' ∉ r.2.client.cwd := fun h => hrclient ▸ (hc h).cwd
  have hq : Silent clean r.2 q.2 := prepareSocket_silent r.2
  have hqstory : q.2.story = r.2.story := by
    rw [Session.story, Session.story, hq.hist, hq.conn]
  simp only
  split
  · rename_i hneg
    exact ⟨hrconn, ⟨_, hr, hrcb ▸ .refused r.1 hneg⟩, hrcwd⟩
  · split
    · have hu := transferError_story (q.2.emitted (.noDataSocket q.1))
      have huclient := transferError_client (q.2.emitted (.noDataSocket q.1))
      generalize transferError (q.2.emitted (.noDataSocket q.1)) = u at hu huclient ⊢
      rw [story_emitted, hqstory, hr, List.append_assoc, List.append_assoc] at hu
      have hnone : u.2.client.dataCallback = none := by
        rw [huclient]
        exact hq.callback.trans hrcb
      have hconn : u.2.client.conn = s.client.conn := by
        rw [huclient]
        exact hq.conn.trans hrconn
      refine ⟨hconn, ⟨_, hu, ?_⟩, fun h => ?_⟩
      · rw [hnone]
        exact .unprepared _ _ _
      · rw [huclient]
        exact hq.cwd h (hrcwd h)
    · rename_i hpos
      let t := (startTransfer callback arg cleanup q.1 q.2).2
      have ht : Grows q.2.world t.world :=
        gettime_keeps grows_frame grows_sockets.answers q.2.world
      refine ⟨hq.conn.trans hrconn, ⟨_, ?_, .pending r.1 q.1 (not_lt.mp hpos)⟩,
        fun h => hq.cwd h (hrcwd h)⟩
      rw [← hr, ← hqstory]
      exact congrFun ht.hist _

theorem transfer_once (callback : Callback) (arg : Nat) (cleanup : Cleanup) :
    AnswersOnce clean (transfer callback arg cleanup) := by
  refine .then_ (prepareDataConnection_once callback arg cleanup) (fun r => .ite ?_ ?_)
    fun r s => ?_
  · exact .bind silent_frame
      (os_silent fun c => runCleanup_keeps (silent_streams c).toClosing _ trivial)
      fun _ => .pure silent_frame _
  · exact .pure silent_frame _
  · rw [ite_run]
    split <;> rfl

theorem listDirectory_once (callback : Callback) (path : Str) :
    AnswersOnce clean (listDirectory callback path) := by
  refine .bind silent_client fun _ =>
    .bind (os_silent fun c => vrtDiropen_keeps (silent_streams c) _ _) fun o => ?_
  cases o with
  | none => exact replyErrno_once
  | some dir => exact transfer_once _ _ _

theorem seekToMarker_once (f : Nat) {proceed : Ses Int} (hm : AnswersOnce clean proceed) :
    AnswersOnce clean (seekToMarker f proceed) := by
  have hmark : ∀ k : Int, Keeps (Silent clean) (update fun c => { c with restartMarker := k }) :=
    fun _ => silent_update (fun _ => rfl) (fun _ => rfl) fun _ => rfl
  refine .bind silent_client fun _ => .bind (os_silent fun c => ?_) fun _ => .ite ?_ ?_
  · exact .ite (lseek_keeps (silent_streams c).toStreaming trivial _)
      (.pure (frameAt silent_frame c) _)
  · exact .bind (hmark 0) fun _ => hm
  · intro s hcb hc
    let w := (runCleanup .fclose f s.world).2
    let t : Session := ⟨{ s.client with restartMarker := 0 }, w⟩
    have hw : Silent clean s ⟨s.client, w⟩ :=
      runCleanup_keeps (silent_streams s.client).toClosing .fclose trivial s.world
    have ht : Silent clean s t := ⟨rfl, hw.hist, hw.texts, rfl, hw.cwd⟩
    refine .after ht (@writeReply_once clean 550 (by decide) (by decide) _
      (fun h => ?_) t hcb fun h => (hc h).silent h ht)
    exact ((hc h).silent h ht).texts s.world.errno

theorem ftpRetr_once (path : Str) : AnswersOnce clean (ftpRetr path) := by
  refine .bind silent_client fun _ =>
    .bind (os_silent fun c => vrtFopen_keeps (silent_streams c) _ _ _) fun o => ?_
  cases o with
  | none => exact replyErrno_once
  | some f => exact seekToMarker_once f (transfer_once _ _ _)

theorem storOrAppend_once (f : Option Nat) : AnswersOnce clean (storOrAppend f) := by
  cases f with
  | none => exact replyErrno_once
  | some f => exact transfer_once _ _ _

theorem ftpStor_once (path : Str) : AnswersOnce clean (ftpStor path) := by
  refine .bind silent_client fun _ =>
    .bind (os_silent fun c => vrtFopen_keeps (silent_streams c) _ _ _) fun o => ?_
  cases o with
  | none =>
    exact .bind (silent_update (fun _ => rfl) (fun _ => rfl) fun _ => rfl) fun _ =>
      storOrAppend_once none
  | some f => exact seekToMarker_once f (storOrAppend_once _)

theorem ftpAppe_once (path : Str) : AnswersOnce clean (ftpAppe path) :=
  .bind silent_client fun _ =>
    .bind (os_silent fun c => vrtFopen_keeps (silent_streams c) _ _ _) fun o => storOrAppend_once o

/-! ### Dispatch -/

theorem ftpSite_once (cmdLine : Str) : AnswersOnce clean (ftpSite cmdLine) := by
  refine dispatchToHandler_of_zip rfl ?_ ?_
  · simp only [siteCommands, siteHandlers, List.zip_cons_cons, List.zip_nil_left,
      List.forall_mem_cons, List.not_mem_nil, false_implies, implies_true, and_true]
    exact ⟨fun _ => ftpSiteLoader_once _, fun _ => fixedReply_once (by decide),
      fun _ => fixedReply_once (by decide), fun _ => ftpSitePasswd_once _,
      fun _ => ftpSiteNopasswd_once _, fun _ => ftpSiteEject_once _, fun _ => ftpSiteMount_once _,
      fun _ => ftpSiteUnmount_once _, fun _ => ftpSiteLoad_once _⟩
  · rintro f ⟨⟩
    exact fixedReply_once (by decide)

/-- Every line is answered once, authenticated or not. -/
theorem dispatch_once (authenticated : Bool) {cmdLine : Str} (hl : clean → '\n' ∉ cmdLine) :
    AnswersOnce clean (dispatch authenticated cmdLine) := by
  have ha : clean → '\n' ∉ argument cmdLine := fun h hm => hl h (mem_argument hm)
  refine .ite (dispatchToHandler_of_zip rfl ?_ ?_) (dispatchToHandler_of_zip rfl ?_ ?_)
  · simp only [authenticatedCommands, authenticatedHandlers, List.zip_cons_cons,
      List.zip_nil_left, List.forall_mem_cons, List.not_mem_nil, false_implies, implies_true,
      and_true]
    exact ⟨fun _ => ftpUser_once _, fun _ => ftpPass_once _, fun _ => listDirectory_once _ _,
      fun _ => ftpPwd_once _, fun _ => ftpCwd_once ha, fun _ => ftpCdup_once _,
      fun _ => ftpSize_once _, fun _ => ftpPasv_once _, fun _ => ftpPort_once _,
      fun _ => ftpType_once _, fun _ => fixedReply_once (by decide), fun _ => ftpMode_once _,
      fun _ => ftpRetr_once _, fun _ => ftpStor_once _, fun _ => ftpAppe_once _,
      fun _ => ftpRest_once _, fun _ => ftpDele_once _, fun _ => ftpMkd_once ha,
      fun _ => ftpDele_once _, fun _ => ftpRnfr_once _, fun _ => ftpRnto_once _,
      fun _ => listDirectory_once _ _, fun _ => ftpQuit_once _, fun _ => ftpRein_once _,
      fun _ => ftpSite_once _, fun _ => fixedReply_once (by decide),
      fun _ => fixedReply_once (by decide)⟩
  · rintro f ⟨⟩
    exact fixedReply_once (by decide)
  · simp only [unauthenticatedCommands, unauthenticatedHandlers, List.zip_cons_cons,
      List.zip_nil_left, List.forall_mem_cons, List.not_mem_nil, false_implies, implies_true,
      and_true]
    exact ⟨fun _ => ftpUser_once _, fun _ => ftpPass_once _, fun _ => ftpQuit_once _,
      fun _ => ftpRein_once _, fun _ => fixedReply_once (by decide)⟩
  · rintro f ⟨⟩
    exact fixedReply_once (by decide)

theorem processCommand_answered {cmdLine : Str} (hne : cmdLine ≠ [])
    (hl : clean → '\n' ∉ cmdLine) {s : Session} (hcb : s.client.dataCallback = none)
    (hc : clean → s.Clean) :
    Answered clean (s.emitted (.command cmdLine s.world.password)) (processCommand cmdLine s).1
      (processCommand cmdLine s).2 := by
  rw [processCommand_run hne]
  exact dispatch_once s.client.authenticated hl (s.emitted (.command cmdLine s.world.password)) hcb
    fun h => ⟨(hc h).cwd, (hc h).texts⟩

end Once

/-! ## Transfers under way -/

theorem closeDataSocket_client (s : Session) : (closeDataSocket s).2.client = s.client := by
  simp only [closeDataSocket, bind_run, ite_run, os_run, pure_run]
  split <;> rfl

theorem runClientCleanup_client (s : Session) : (runClientCleanup s).2.client = s.client := by
  simp only [runClientCleanup, bind_run, client_run]
  cases s.client.dataConnectionCleanup <;> cases s.client.dataConnectionCallbackArg <;> rfl

def Client.released (c : Client) : Client :=
  { c with dataSocket := -1, dataConnectionConnected := false, dataCallback := none,
           dataConnectionCallbackArg := none, dataConnectionCleanup := none,
           dataConnectionTimer := 0 }

theorem cleanupDataResources_client (s : Session) :
    (cleanupDataResources s).2.client = s.client.released := by
  simp only [cleanupDataResources, bind_run, update_run, runClientCleanup_client,
    closeDataSocket_client]
  rfl

theorem cleanupDataResources_world (s : Session) : (cleanupDataResources s).2.world =
    (runClientCleanup ⟨s.client, (closeDataSocket s).2.world⟩).2.world := by
  simp only [cleanupDataResources, bind_run, update_run, runClientCleanup, client_run,
    closeDataSocket_client]
  cases s.client.dataConnectionCleanup <;> cases s.client.dataConnectionCallbackArg <;> rfl

theorem cleanupDataResources_grows : Keeps (OnWorld Grows) cleanupDataResources :=
  cleanupDataResources_keeps (releases_onWorld grows_sockets grows_streams)

/-- The part of process_data_events before its cleanup: drive the transfer or wait for its
connection. -/
def dataStep : Ses Int := do
  let c ← client
  if c.dataConnectionConnected then driveTransfer else awaitDataConnection

theorem dataStep_silent : Keeps (Silent clean) dataStep := by
  have hd : Drives (Silent clean) :=
    ⟨silent_frame, silent_sockets, fun c => (silent_streams c).toClosing, fun _ _ _ => ⟨rfl, rfl, rfl, rfl, fun _ => id⟩⟩
  exact .bind silent_frame silent_client fun _ =>
    .ite (driveTransfer_keeps hd) (awaitDataConnection_keeps hd)

theorem dataEvents_run (s : Session) : dataEvents s =
    let a := dataStep s
    if a.1 ≤ 0 ∧ a.1 ≠ -EAGAIN then
      let d := transferDone a.1 (cleanupDataResources a.2).2
      (decide (d.1 < 0), d.2)
    else (false, a.2) := by
  have he : dataEvents = (do
      let result ← dataStep
      if result ≤ 0 ∧ result ≠ -EAGAIN then do
        cleanupDataResources
        let replied ← transferDone result
        pure (replied < 0)
      else pure false) := rfl
  rw [he]
  simp only [bind_run, ite_run, pure_run]

/-- A call for a transfer goes on in silence, or ends it with its one reply. -/
theorem dataEvents_outcome (s : Session) :
    ((dataEvents s).1 = false ∧ Silent clean s (dataEvents s).2) ∨
      ∃ code text r, (code = 226 ∨ code = 520) ∧ '\n' ∉ text ∧
        (dataEvents s).2.story = s.story ++ [.reply code text r] ∧
        (dataEvents s).2.client.conn = s.client.conn ∧
        (dataEvents s).2.client.dataCallback = none ∧
        (clean → '\n' ∉ s.client.cwd → '\n' ∉ (dataEvents s).2.client.cwd) := by
  have hs : Silent clean s (dataStep s).2 := dataStep_silent s
  rw [dataEvents_run]
  simp only
  split
  · refine .inr ?_
    let t := (cleanupDataResources (dataStep s).2).2
    have hclient : t.client = (dataStep s).2.client.released := cleanupDataResources_client _
    have hgrow : Grows (dataStep s).2.world t.world := cleanupDataResources_grows _
    have hconn : t.client.conn = s.client.conn := by
      rw [hclient]
      exact hs.conn
    have hstory : t.story = s.story := by
      rw [Session.story, Session.story, hgrow.hist, hs.hist, hconn]
    have hcwd : clean → '\n' ∉ s.client.cwd → '\n' ∉ t.client.cwd := by
      rw [hclient]
      exact hs.cwd
    have hcb : t.client.dataCallback = none := by rw [hclient, Client.released]
    have hsaid : ∀ code text, (writeReply code text t).2.story =
        s.story ++ [.reply code text (writeReply code text t).1] := by
      intro code text
      rw [writeReply_story, hstory]
    unfold transferDone transferError
    simp only [ite_run]
    split
    · exact ⟨520, _, _, .inr rfl, by decide, hsaid 520 _, hconn, hcb, hcwd⟩
    · exact ⟨226, _, _, .inl rfl, by decide, hsaid 226 _, hconn, hcb, hcwd⟩
  · exact .inl ⟨rfl, hs⟩

end Ftpii
