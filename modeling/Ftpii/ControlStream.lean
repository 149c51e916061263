import Ftpii.Histories
set_option autoImplicit false

/-! The control stream in every run: what was received, consumed and executed. -/

namespace Ftpii
open StateProgram Prog

/-! ## Runs of the program as loaded -/

/-- The program as it enters its loop, without a password. -/
def Server.loaded : Server :=
  Server.boot (World.boot (fun _ => none) (fun _ => true) (fun _ => []))

def Server.after (ls : List Label) : Server := ls.foldl Server.step Server.loaded

theorem after_reachable (ls : List Label) : Reachable (fun _ _ => True) (Server.after ls) :=
  Reach.foldl (.init ⟨_, _, _, [], rfl⟩) ls

theorem after_texts (ls : List Label) : (Server.after ls).world.strerror = fun _ => [] := by
  have hstart : Recorded (fun _ => []) (fun _ _ => True) (fun _ => True) Server.loaded :=
    ⟨rfl, fun p c hp => by simp [Server.loaded, Server.boot] at hp, fun _ => trivial⟩
  have hloaded : Server.loaded.Initial := ⟨_, _, _, [], rfl⟩
  exact ((conversation_true _).survives.run
    (fun s hr w server down halted hn => hr.grow rfl hn.grows hn.sameTexts) hloaded.wellFormed
    hstart ls).2.texts

/-- The listener comes up as descriptor 3 and a peer connects as descriptor 4, after which the
network calls have these outcomes. -/
def connecting (net : List NetAnswer) : List Label :=
  [.env { net := [{}, { addr := { ip := 1 } }, { code := 3 }, {}, {}, { code := 4 },
      { code := -EAGAIN }] ++ net }, .reinit, .accept]

def firstTurn : Label := .slot ⟨0, by decide⟩

/-- A peer that has sent one line and a half. -/
def noopRun : List Label := connecting [{ data := "NOOP\r\nNO".toList }]

/-- A peer that leaves, and another one to which its number is given again. -/
def returningRun : List Label :=
  connecting [{ data := "PWD\r\nQUIT\r\n".toList }] ++
    [firstTurn, .env { net := [{ code := 4, addr := { ip := 2 } }, { code := -EAGAIN },
      { data := "PASS x\r\nPWD\r\nNO".toList }] }, .accept, firstTurn]

/-- The bytes noted are the consumed lines and what is buffered, and a client is closed for the
framer's reasons only. -/
theorem Reachable.framed {guard : Server → Label → Prop} {s : Server}
    (h : Reachable guard s) {p : Nat} {c : Client} (hp : s.heap p = some c) :
    Told (s.world.hist c.conn) (c.buf.take c.offset) ∧
      let t := controlEvents ⟨c, s.world⟩
      (t.1 = false → Told t.2.story (t.2.client.buf.take t.2.client.offset)) ∧
      (t.1 = true ↔
        (∃ es, t.2.story = s.world.hist c.conn ++ es ∧ ∃ e ∈ es, e.Closes) ∨
          t.2.client.offset = FTP_BUFFER_SIZE - 1 ∧ ¬ t.2.client.Stranded) := by
  have hc := ((Conversation.reach conversation_true h).clients p c hp).1
  refine ⟨hc.told, ?_⟩
  rcases controlEvents_outcome serves_true (s := ⟨c, s.world⟩) hc trivial with
    ⟨hr, -, hend⟩ | ⟨hr, -, hf, ⟨-, es, hes, hq⟩, hlt, -⟩
  · refine ⟨by simp [hr], fun _ => ?_, fun _ => hr⟩
    rcases hend with ⟨-, hend⟩ | ⟨-, hf, ho⟩
    · exact .inl hend
    · exact .inr ⟨ho, hf.full ho⟩
  · refine ⟨fun _ => hf.told, by simp [hr], fun hend => ?_⟩
    rcases hend with ⟨es', hes', e, he, hcl⟩ | ⟨ho, -⟩
    · obtain rfl : es = es' := List.append_cancel_left (hes.symm.trans hes')
      exact absurd hcl (hq e he)
    · omega

/-- A client of a run, found by computing it. -/
theorem exists_client {s : Server} {p : Nat} (Q : Client → Prop) [DecidablePred Q]
    (h : (s.heap p).any (fun c => decide (Q c)) = true) : ∃ c, s.heap p = some c ∧ Q c := by
  cases hc : s.heap p with
  | none => simp [hc] at h
  | some c => exact ⟨c, rfl, by simpa [hc] using h⟩

instance (c : Client) : Decidable c.Stranded :=
  inferInstanceAs (Decidable (CRLF <:+: c.buf.take c.offset))

def Client.Unread (c : Client) (w : World) : Prop :=
  (w.socks c.socket).isSome ∧ ∀ a ∈ w.answers.net.head?, a.code = -EAGAIN

theorem netRead_unread (c : Client) (len : Nat) (w : World) :
    (netRead c.socket len w).1 = .error (-EAGAIN) ↔ c.Unread w := by
  have hpos : ¬ (0 ≤ -EAGAIN) := by decide
  rw [netRead_run, Client.Unread]
  cases hk : w.socks c.socket with
  | none => simp [EBADF, EAGAIN]
  | some k =>
    cases ha : w.answers.net with
    | nil => simp [popNet, World.record, ha, EAGAIN]
    | cons a as =>
      simp only [popNet, World.record, ha]
      by_cases hneg : a.code < 0
      · simp [hneg]
      · simp only [hneg, if_false, Option.isSome_some, List.head?_cons, Option.mem_def,
          Option.some.injEq, forall_eq', true_and, reduceCtorEq, false_iff]
        omega

/-- A call that leaves the client open and without a transfer has executed every complete line,
unless one was already buffered and no byte arrives. -/
theorem no_line_stranded {guard : Server → Label → Prop} {s : Server} (h : Reachable guard s)
    {p : Nat} {c : Client} (hp : s.heap p = some c) (hcb : c.dataCallback = none)
    (hopen : (controlEvents ⟨c, s.world⟩).1 = false)
    (hidle : (controlEvents ⟨c, s.world⟩).2.client.dataCallback = none) :
    ¬ (controlEvents ⟨c, s.world⟩).2.client.Stranded ↔
      ¬ (c.Stranded ∧ c.Unread s.world) := by
  have hc := ((Conversation.reach conversation_true h).clients p c hp).1
  rcases controlEvents_outcome serves_true (s := ⟨c, s.world⟩) hc trivial with
    ⟨hr, -⟩ | ⟨-, -, -, -, -, hend⟩
  · simp [hr] at hopen
  rcases hend with hsome | hno | ⟨hsame, hread⟩
  · simp [hidle] at hsome
  · refine ⟨fun _ ⟨hstranded, hunread⟩ => ?_, fun _ => hno⟩
    have hlt : ¬ FTP_BUFFER_SIZE - 1 ≤ c.offset := by
      intro hle
      exact hc.full (le_antisymm hc.offset_le hle) hstranded
    -- the read that finds nothing ends the call at once
    have hstep := controlStep_error (s := ⟨c, s.world⟩) hlt hcb
      ((netRead_unread c _ s.world).mpr hunread)
    have hrun : (controlEvents ⟨c, s.world⟩).2.client = c := by
      change (Prog.iterate (_ + 1) (fun _ => controlStep) (fun _ => false) () ⟨c, s.world⟩).2.client = c
      simp [Prog.iterate, hstep, Session.read]
    exact hno (hrun.symm ▸ hstranded)
  · have hunread := (netRead_unread c _ s.world).mp hread
    rw [hsame]
    exact ⟨fun hno ⟨hstranded, _⟩ => hno hstranded, fun hnot hstranded => hnot ⟨hstranded, hunread⟩⟩

theorem no_line_stranded_noop :
    ∃ c, (Server.after noopRun).heap 0 = some c ∧
      ¬ (controlEvents ⟨c, (Server.after noopRun).world⟩).2.client.Stranded := by
  obtain ⟨c, hc, ⟨hcb, hopen⟩, hidle, hfree⟩ := exists_client (s := Server.after noopRun) (p := 0)
    (fun c => (c.dataCallback = none ∧
      (controlEvents ⟨c, (Server.after noopRun).world⟩).1 = false) ∧
      (controlEvents ⟨c, (Server.after noopRun).world⟩).2.client.dataCallback = none ∧
      c.offset = 0) (by decide +kernel)
  have hiff := no_line_stranded (after_reachable noopRun) hc hcb hopen hidle
  refine ⟨c, hc, hiff.mpr fun h => ?_⟩
  simp [Client.Stranded, hfree, CRLF] at h

/-- A peer whose listing cannot be delivered, with a line behind it. -/
def pipelinedRun : List Label :=
  connecting [{ data := "PASS x\r\nNLST\r\nNOOP\r\n".toList }, { code := 5 }, {},
    { code := -111 }] ++ [firstTurn, firstTurn]

/-- A line sent behind a listing stays in the buffer once the listing is over. -/
theorem pipelined_line_stranded :
    Reachable (fun _ _ => True) (Server.after pipelinedRun) ∧
    ∃ c, (Server.after pipelinedRun).heap 0 = some c ∧ c.dataCallback = none ∧
      (controlEvents ⟨c, (Server.after pipelinedRun).world⟩).1 = false ∧
      (controlEvents ⟨c, (Server.after pipelinedRun).world⟩).2.client.dataCallback = none ∧
      (controlEvents ⟨c, (Server.after pipelinedRun).world⟩).2.client.Stranded := by
  exact ⟨after_reachable pipelinedRun, exists_client (s := Server.after pipelinedRun) (p := 0) _ (by decide +kernel)⟩

end Ftpii
