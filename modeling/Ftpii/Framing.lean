import Ftpii.Runs
set_option autoImplicit false

/-!
The framing of the control stream: what a connection's events say about the
bytes received, and a rule for everything done while commands are read.
-/

namespace Ftpii
open StateProgram Prog CString

/-! ## What the events of a connection say -/

@[simp] def Event.bytes : Event → Str
  | .recv _ data => data
  | _ => []

@[simp] def Event.consumed : Event → Option Str
  | .line text => some text
  | _ => none

@[simp] def Event.executed : Event → Option Str
  | .command text _ => some text
  | _ => none

/-- The bytes received, the lines cut off, and the lines handed to process_command. -/
def received (h : List Event) : Str := h.flatMap Event.bytes
def consumed (h : List Event) : List Str := h.filterMap Event.consumed
def executed (h : List Event) : List Str := h.filterMap Event.executed

@[simp] theorem received_cons (e : Event) (h : List Event) :
    received (e :: h) = e.bytes ++ received h := rfl

@[simp] theorem received_append (h h' : List Event) :
    received (h ++ h') = received h ++ received h' := by simp [received]

@[simp] theorem received_nil : received [] = [] := rfl

@[simp] theorem consumed_cons (e : Event) (h : List Event) :
    consumed (e :: h) = e.consumed.toList ++ consumed h := by
  cases e <;> rfl

@[simp] theorem consumed_append (h h' : List Event) :
    consumed (h ++ h') = consumed h ++ consumed h' := by simp [consumed]

@[simp] theorem consumed_nil : consumed [] = [] := rfl

@[simp] theorem executed_cons (e : Event) (h : List Event) :
    executed (e :: h) = e.executed.toList ++ executed h := by
  cases e <;> rfl

@[simp] theorem executed_append (h h' : List Event) :
    executed (h ++ h') = executed h ++ executed h' := by simp [executed]

@[simp] theorem executed_nil : executed [] = [] := rfl

/-- Lines as they came over the connection. -/
def terminated (ls : List Str) : Str := ls.flatMap (· ++ CRLF)

def Event.IsAnswer : Event → Prop
  | .reply .. | .noDataSocket .. => True
  | _ => False

def Event.IsFraming : Event → Prop
  | .recv .. | .readError .. | .line .. | .handled .. => True
  | _ => False

/-- The reasons for which the framer closes a client. -/
def Event.Closes : Event → Prop
  | .recv _ data => data = [] ∨ '\x00' ∈ data
  | .readError code => code ≠ -EAGAIN
  | .line text => '\n' ∈ text
  | .handled result => result < 0
  | _ => False

theorem Event.IsAnswer.not_closes {e : Event} (h : e.IsAnswer) : ¬ e.Closes := by
  cases e <;> simp_all [Event.IsAnswer, Event.Closes]

/-- The events tell of the lines consumed so far, with the rest still to be read. -/
structure Told (h : List Event) (rest : Str) : Prop where
  conserved : received h = terminated (consumed h) ++ rest
  commands : executed h = (consumed h).filter (· ≠ [])
  clean : ∀ l ∈ consumed h, '\n' ∉ l

theorem told_nil : Told [] [] := by constructor <;> simp [terminated]

theorem bytes_of_answers {es : List Event} (h : ∀ e ∈ es, e.IsAnswer) :
    received es = [] ∧ consumed es = [] ∧ executed es = [] := by
  induction es with
  | nil => simp
  | cons e es ih =>
    have he := h e (by simp)
    have ht := ih fun e he => h e (by simp [he])
    cases e <;> simp_all [Event.IsAnswer]

section Told

variable {h : List Event} {rest : Str}

theorem Told.answers (ht : Told h rest) {es : List Event} (hes : ∀ e ∈ es, e.IsAnswer) :
    Told (h ++ es) rest := by
  obtain ⟨hr, hc, hx⟩ := bytes_of_answers hes
  exact ⟨by simp [hr, hc, ht.conserved], by simp [hx, hc, ht.commands], by simpa [hc] using ht.clean⟩

theorem Told.recv (ht : Told h rest) (id : Nat) (data : Str) :
    Told (h ++ [.recv id data]) (rest ++ data) :=
  ⟨by simp [ht.conserved], by simp [ht.commands], by simpa using ht.clean⟩

theorem Told.readError (ht : Told h rest) (code : Int) : Told (h ++ [.readError code]) rest :=
  ⟨by simp [ht.conserved], by simp [ht.commands], by simpa using ht.clean⟩

theorem Told.blank (ht : Told h (CRLF ++ rest)) : Told (h ++ [.line []]) rest := by
  refine ⟨?_, by simp [ht.commands], by simpa [or_imp, forall_and] using ht.clean⟩
  simp [ht.conserved, terminated]

theorem Told.command {l : Str} (ht : Told h (l ++ CRLF ++ rest)) (hl : l ≠ []) (hn : '\n' ∉ l)
    (password : Option Str) {es : List Event} (hes : ∀ e ∈ es, e.IsAnswer) (result : Int) :
    Told (h ++ (.line l :: .command l password :: es ++ [.handled result])) rest := by
  obtain ⟨her, hec, hex⟩ := bytes_of_answers hes
  refine ⟨?_, by simp [ht.commands, hex, hec, hl], ?_⟩
  · simp [ht.conserved, her, hec, terminated]
  · simpa [hec, or_imp, forall_and, hn] using ht.clean

end Told

/-! ## What handlers add -/

/-- The events of the session's own connection. -/
abbrev Session.story (s : Session) : List Event := s.world.hist s.client.conn

abbrev Session.emitted (s : Session) (e : Event) : Session :=
  { s with world := s.world.emit s.client.conn e }

theorem story_emitted (s : Session) (e : Event) : (s.emitted e).story = s.story ++ [e] := by
  simp [Session.story, World.emit]

/-- Only answers are added, and what the framer works on is as before. -/
structure Answering (s s' : Session) : Prop where
  control : s.client.SameControl s'.client
  adds : ∃ es, s'.world.hist s.client.conn = s.story ++ es ∧ ∀ e ∈ es, e.IsAnswer

theorem Answering.story {s s' : Session} (h : Answering s s') :
    ∃ es, s'.story = s.story ++ es ∧ ∀ e ∈ es, e.IsAnswer := by
  obtain ⟨es, he, ha⟩ := h.adds
  exact ⟨es, by rw [Session.story, h.control.conn, he], ha⟩

theorem answering_frame : Frame Answering where
  refl s := ⟨.refl _, [], by simp, by simp⟩
  trans := by
    rintro a b c ⟨hc, es, he, ha⟩ ⟨hc', es', he', ha'⟩
    refine ⟨hc.trans hc', es ++ es', ?_, fun e hm => (List.mem_append.mp hm).elim (ha e) (ha' e)⟩
    rw [hc.conn] at he'
    rw [he', Session.story, hc.conn, he, List.append_assoc]

theorem Grows.answering {c : Client} {w w' : World} (h : Grows w w') : Answering ⟨c, w⟩ ⟨c, w'⟩ :=
  ⟨.refl _, [], by simp [h.hist], by simp⟩

theorem answering_update (s : Session) (c : Client) (h : s.client.SameControl c) :
    Answering s { s with client := c } := ⟨h, [], by simp, by simp⟩

theorem answering_emit (s : Session) (e : Event) (h : e.IsAnswer) : Answering s (s.emitted e) :=
  ⟨.refl _, [e], by simp [World.emit], by simpa using h⟩

theorem answering_sockets (c : Client) : UsesSockets (At Answering c) :=
  grows_sockets.imp (frameAt answering_frame c) fun _ _ h => h.answering

theorem answering_streams (c : Client) : UsesStreams (At Answering c) :=
  grows_streams.imp (frameAt answering_frame c) fun _ _ h => h.answering

theorem answering_devices (c : Client) : UsesDevices (At Answering c) :=
  grows_devices.imp (frameAt answering_frame c) fun _ _ h => h.answering

theorem answering_replies : Replies Answering :=
  .of_sends answering_frame (fun c => (answering_sockets c).toSends.mono fun _ _ => trivial)
    fun s _ _ _ => answering_emit s _ trivial

theorem answering_use : HandlerUse Answering where
  toReplies := answering_replies
  sockets := answering_sockets
  streams := answering_streams
  devices c := (answering_devices c).mounts
  unprepared s _ := answering_emit s _ trivial
  dataSocket s _ := answering_update s _ ⟨rfl, rfl, rfl, rfl⟩
  prepared s _ _ _ _ := answering_update s _ ⟨rfl, rfl, rfl, rfl⟩
  statics _ _ _ _ _ := ⟨.refl _, [], by simp, by simp⟩
  type s _ := answering_update s _ ⟨rfl, rfl, rfl, rfl⟩
  pending s _ := answering_update s _ ⟨rfl, rfl, rfl, rfl⟩
  passive s _ := answering_update s _ ⟨rfl, rfl, rfl, rfl⟩
  address s _ := answering_update s _ ⟨rfl, rfl, rfl, rfl⟩

theorem dispatch_answering (authenticated : Bool) (cmdLine : Str) :
    Keeps Answering (dispatch authenticated cmdLine) :=
  dispatch_keeps
    (answering_use.handled_of (fun s => answering_update s _ ⟨rfl, rfl, rfl, rfl⟩)
      (fun s => answering_update s _ ⟨rfl, rfl, rfl, rfl⟩)
      (fun s _ => answering_update s _ ⟨rfl, rfl, rfl, rfl⟩)
      (fun s _ => answering_update s _ ⟨rfl, rfl, rfl, rfl⟩) cmdLine) authenticated

theorem dataEvents_answering : Keeps Answering dataEvents :=
  dataEvents_keeps
    { toReplies := answering_replies
      sockets := answering_sockets
      streams := fun c => (answering_streams c).toClosing
      data := fun s _ _ _ _ _ _ => answering_update s _ ⟨rfl, rfl, rfl, rfl⟩ }

theorem processCommand_story {l : Str} (h : l ≠ []) (s : Session) :
    s.client.SameControl (processCommand l s).2.client ∧
      ∃ es, (processCommand l s).2.story = s.story ++ .command l s.world.password :: es ∧
        ∀ e ∈ es, e.IsAnswer := by
  rw [processCommand_run h]
  have ha := dispatch_answering s.client.authenticated l (s.emitted (.command l s.world.password))
  obtain ⟨es, he, hes⟩ := ha.story
  refine ⟨ha.control, es, ?_, hes⟩
  rw [he, story_emitted]
  simp

/-! ## Serving a client -/

/-- J is kept while a client is served, K also by what makes it leave. -/
structure Serves (J K : Session → Prop) : Prop where
  weaken : ∀ s, J s → K s
  read : ∀ (s : Session) n, J s → J { s with world := (netRead s.client.socket n s.world).2 }
  note : ∀ (s : Session) e, e.IsFraming → J s → J (s.emitted e)
  leaving : ∀ (s : Session) e, e.IsFraming → K s → K (s.emitted e)
  buffer : ∀ (s : Session) buf offset, J s →
    J { s with client := { s.client with buf := buf, offset := offset } }
  command : ∀ (s : Session) l, J s → s.client.dataCallback = none → l ≠ [] → '\n' ∉ l →
    K (processCommand l s).2 ∧ (0 ≤ (processCommand l s).1 → J (processCommand l s).2)

theorem serves_true : Serves (fun _ => True) (fun _ => True) := by
  constructor <;> intros <;> simp

def Quietly (s s' : Session) : Prop :=
  s'.client.conn = s.client.conn ∧ ∃ es, s'.story = s.story ++ es ∧ ∀ e ∈ es, ¬ e.Closes

def Ends (s s' : Session) : Prop :=
  s'.client.conn = s.client.conn ∧ ∃ es, s'.story = s.story ++ es ∧ ∃ e ∈ es, e.Closes

theorem quietly_frame : Frame Quietly where
  refl _ := ⟨rfl, [], by simp, by simp⟩
  trans := by
    rintro a b c ⟨hc, es, he, hq⟩ ⟨hc', es', he', hq'⟩
    exact ⟨hc'.trans hc, es ++ es', by rw [he', he, List.append_assoc],
      fun e hm => (List.mem_append.mp hm).elim (hq e) (hq' e)⟩

theorem Quietly.ends {a b c : Session} (h : Quietly a b) (h' : Ends b c) : Ends a c := by
  obtain ⟨hc, es, he, -⟩ := h
  obtain ⟨hc', es', he', e, hm, hcl⟩ := h'
  exact ⟨hc'.trans hc, es ++ es', by rw [he', he, List.append_assoc], e, by simp [hm], hcl⟩

theorem Quietly.of_story {s s' : Session} {e : Event} (hc : s'.client.conn = s.client.conn)
    (hs : s'.story = s.story ++ [e]) (h : ¬ e.Closes) : Quietly s s' :=
  ⟨hc, [e], hs, by simpa using h⟩

theorem Ends.of_story {s s' : Session} {e : Event} (hc : s'.client.conn = s.client.conn)
    (hs : s'.story = s.story ++ [e]) (h : e.Closes) : Ends s s' :=
  ⟨hc, [e], hs, e, by simp, h⟩

/-- The loop over lines stands at position next, with this text before the NUL. -/
structure Cutting (next : Nat) (rest : Str) (s : Session) : Prop where
  holds : Holds s.client.buf next rest
  offset : next + rest.length = s.client.offset
  size : s.client.buf.length = FTP_BUFFER_SIZE
  told : Told s.story rest

/-- No line is cut: none is complete, or a transfer is under way. -/
theorem lineStep_stop {next : Nat} {s : Session}
    (h : strstr CRLF (cstr s.client.buf next) = none ∨ s.client.dataCallback.isSome) :
    lineStep next s = (.inr (some next), s) := by
  simp only [lineStep, bind_run, client, gets_run]
  cases hf : strstr CRLF (cstr s.client.buf next) with
  | none => rfl
  | some i =>
    have hcb : s.client.dataCallback.isSome := by simpa [hf] using h
    simp [hcb]

def Session.cut (s : Session) (i : Nat) (line : Str) : Session :=
  Session.emitted { s with client := { s.client with buf := s.client.buf.set i '\x00' } } (.line line)

theorem lineStep_cut {next i : Nat} {line : Str} {s : Session}
    (hf : strstr CRLF (cstr s.client.buf next) = some i) (hcb : s.client.dataCallback = none)
    (hl : cstr (s.client.buf.set (next + i) '\x00') next = line) :
    lineStep next s =
      if '\n' ∈ line then (.inr none, s.cut (next + i) line)
      else if line = [] then (.inl (next + i + CRLF.length), s.cut (next + i) line)
      else
        (if (processCommand line (s.cut (next + i) line)).1 < 0 then .inr none
          else .inl (next + i + CRLF.length),
          (processCommand line (s.cut (next + i) line)).2.emitted
            (.handled (processCommand line (s.cut (next + i) line)).1)) := by
  subst hl
  simp +instances only [lineStep, bind_run, client_run, update_run, emit_run, ite_run, pure_run, hf,
    hcb, Session.cut, Option.isSome_none, Bool.false_eq_true, if_false]

section Serves

variable {J K : Session → Prop} (hJ : Serves J K)

include hJ

/-- One round of the loop over lines: it stops, ends the client, or has consumed a line. -/
theorem lineStep_outcome {next : Nat} {rest : Str} {s : Session} (hc : Cutting next rest s)
    (hj : J s) :
    (lineStep next s = (.inr (some next), s) ∧
        (s.client.dataCallback.isSome ∨ ¬ CRLF <:+: rest)) ∨
      ((lineStep next s).1 = .inr none ∧ K (lineStep next s).2 ∧ Ends s (lineStep next s).2) ∨
      ∃ next' rest', (lineStep next s).1 = .inl next' ∧ next < next' ∧
        rest'.length < rest.length ∧ Cutting next' rest' (lineStep next s).2 ∧
        J (lineStep next s).2 ∧ Quietly s (lineStep next s).2 := by
  have hrest := hc.holds.cstr
  cases hf : strstr CRLF rest with
  | none => exact .inl ⟨lineStep_stop (.inl (hrest ▸ hf)), .inr (strstr_none.mp hf)⟩
  | some i =>
    cases hcb : s.client.dataCallback with
    | some cb => exact .inl ⟨lineStep_stop (.inr (by simp [hcb])), .inl rfl⟩
    | none =>
      obtain ⟨heq, hle⟩ := strstr_some hf
      have h2 : CRLF.length = 2 := rfl
      let l := rest.take i
      let t := rest.drop (i + CRLF.length)
      have hlen : l.length = i := by simp [l]; omega
      have hsplit : rest = l ++ CRLF ++ t := heq
      have hcut : Holds (s.client.buf.set (next + i) '\x00') next l := by
        have hh := hc.holds
        rw [hsplit, List.append_assoc] at hh
        exact hlen ▸ Holds.cut_left hh
      have hnext : Holds (s.client.buf.set (next + i) '\x00') (next + i + CRLF.length) t := by
        have hh := hc.holds
        rw [hsplit] at hh
        exact hlen ▸ Holds.cut_right (by simp [CRLF]) hh
      have hoff : next + i + CRLF.length + t.length = s.client.offset := by
        rw [← hc.offset]
        simp [t]
        omega
      have hsize : (s.client.buf.set (next + i) '\x00').length = FTP_BUFFER_SIZE := by
        simp [hc.size]
      have hstory : (s.cut (next + i) l).story = s.story ++ [.line l] := story_emitted _ _
      have hjc : J (s.cut (next + i) l) :=
        hJ.note _ _ trivial (hJ.buffer s _ s.client.offset hj)
      have hrun := lineStep_cut (s := s) (hrest ▸ hf) hcb hcut.cstr
      by_cases hn : '\n' ∈ l
      · rw [hrun, if_pos hn]
        exact .inr (.inl ⟨rfl, hJ.weaken _ hjc, .of_story rfl hstory hn⟩)
      · have hquiet : Quietly s (s.cut (next + i) l) := .of_story rfl hstory hn
        by_cases hl : l = []
        · refine .inr (.inr ⟨next + i + CRLF.length, t, ?_⟩)
          rw [hrun, if_neg hn, if_pos hl]
          refine ⟨rfl, by simp [CRLF]; omega, by simp [t]; omega,
            ⟨hnext, hoff, hsize, ?_⟩, hjc, hquiet⟩
          rw [hstory, hl]
          refine Told.blank ?_
          have ht := hc.told
          rw [hsplit, hl] at ht
          simpa using ht
        · obtain ⟨hctl, es, hes, ha⟩ := processCommand_story hl (s.cut (next + i) l)
          obtain ⟨hk, hjr⟩ := hJ.command _ l hjc hcb hl hn
          let r := (processCommand l (s.cut (next + i) l)).1
          let u := (processCommand l (s.cut (next + i) l)).2
          have hsaid : (u.emitted (.handled r)).story =
              s.story ++ (.line l :: .command l (s.cut (next + i) l).world.password :: es ++
                [.handled r]) := by
            rw [story_emitted, hes, hstory]
            simp
          rw [hrun, if_neg hn, if_neg hl]
          by_cases hr : r < 0
          · exact .inr (.inl ⟨if_pos hr, hJ.leaving _ _ trivial hk, hctl.conn, _, hsaid,
              .handled r, by simp, hr⟩)
          · refine .inr (.inr ⟨next + i + CRLF.length, t, if_neg hr, by simp [CRLF]; omega,
              by simp [t]; omega, ⟨?_, ?_, ?_, ?_⟩, hJ.note _ _ trivial (hjr (by omega)),
              hctl.conn, _, hsaid, ?_⟩)
            · exact hctl.buf ▸ hnext
            · exact hctl.offset ▸ hoff
            · exact hctl.buf ▸ hsize
            · rw [hsaid]
              exact Told.command (hsplit ▸ hc.told) hl hn _ ha r
            · intro e he
              simp only [List.cons_append, List.mem_cons, List.mem_append, List.not_mem_nil,
                or_false] at he
              rcases he with rfl | rfl | he | rfl
              · exact hn
              · exact id
              · exact (ha e he).not_closes
              · exact hr

theorem processLines_outcome {rest : Str} {s : Session} (hc : Cutting 0 rest s) (hj : J s) :
    (∃ next rest', (processLines s).1 = some next ∧ Cutting next rest' (processLines s).2 ∧
        J (processLines s).2 ∧ Quietly s (processLines s).2 ∧
        ((processLines s).2.client.dataCallback.isSome ∨ ¬ CRLF <:+: rest') ∧
        (next = 0 → rest' = rest ∧ (processLines s).2 = s)) ∨
      ((processLines s).1 = none ∧ K (processLines s).2 ∧ Ends s (processLines s).2) := by
  have hbound : ∀ {next rest t}, Cutting next rest t → next ≤ FTP_BUFFER_SIZE - 1 := by
    intro next rest t h
    have hlt := h.holds.length_lt
    rw [h.size] at hlt
    omega
  refine iterate_rule_of_lt (fun next _ => FTP_BUFFER_SIZE - 1 - next)
    (I := fun next t => ∃ rest', Cutting next rest' t ∧ J t ∧ Quietly s t ∧
      (next = 0 → rest' = rest ∧ t = s))
    (Q := fun o t => (∃ next rest', o = some next ∧ Cutting next rest' t ∧ J t ∧ Quietly s t ∧
      (t.client.dataCallback.isSome ∨ ¬ CRLF <:+: rest') ∧ (next = 0 → rest' = rest ∧ t = s)) ∨
      (o = none ∧ K t ∧ Ends s t)) ?_ ?_ FTP_BUFFER_SIZE (by decide)
    ⟨rest, hc, hj, quietly_frame.refl s, fun _ => ⟨rfl, rfl⟩⟩
  · rintro next t next' ⟨rest', hct, hjt, hq, -⟩ hr
    rcases lineStep_outcome hJ hct hjt with ⟨he, -⟩ | ⟨he, -⟩ | ⟨n, r, he, hlt, -, hcn, hjn, hqn⟩
    · simp [he] at hr
    · simp [he] at hr
    · obtain rfl : n = next' := by simpa [he] using hr
      have hb := hbound hcn
      exact ⟨⟨r, hcn, hjn, quietly_frame.trans hq hqn, by omega⟩, by omega⟩
  · rintro next t o ⟨rest', hct, hjt, hq, hz⟩ hr
    rcases lineStep_outcome hJ hct hjt with ⟨he, hend⟩ | ⟨he, hk, hends⟩ | ⟨n, r, he, -⟩
    · obtain rfl : some next = o := by simpa [he] using hr
      rw [he]
      exact .inl ⟨next, rest', rfl, hct, hjt, hq, hend, hz⟩
    · obtain rfl : none = o := by simpa [he] using hr
      exact .inr ⟨rfl, hk, hq.ends hends⟩
    · simp [he] at hr

end Serves

/-- The control stream between two reads. -/
structure Framed (c : Client) (h : List Event) : Prop where
  told : Told h (c.buf.take c.offset)
  size : c.buf.length = FTP_BUFFER_SIZE
  offset_le : c.offset ≤ FTP_BUFFER_SIZE - 1
  full : c.offset = FTP_BUFFER_SIZE - 1 → ¬ CRLF <:+: c.buf.take c.offset
  no_nul : '\x00' ∉ c.buf.take c.offset

/-- A complete line is buffered. -/
def Client.Stranded (c : Client) : Prop := CRLF <:+: c.buf.take c.offset

theorem netRead_run (s : Int) (len : Nat) (w : World) :
    netRead s len w = match w.socks s with
      | none => (.error (-EBADF), w)
      | some k =>
        let r := popNet (w.record (.waits s k.blocking))
        if r.1.code < 0 then (.error r.1.code, r.2)
        else (.ok (k.id, r.1.data.take len),
          { r.2 with received :=
              Function.update r.2.received k.id (r.2.received k.id ++ r.1.data.take len) }) := by
  cases hk : w.socks s <;>
    simp +instances only [netRead, bind_run, waitOn, hk, ite_run, pure_run, modify_run]

theorem popNet_length {w : World} (h : 0 ≤ (popNet w).1.code) :
    (popNet w).2.answers.net.length < w.answers.net.length := by
  unfold popNet at h ⊢
  cases hn : w.answers.net with
  | nil => simp [hn, EAGAIN] at h
  | cons a as => simp

theorem netRead_ok {s : Int} {len id : Nat} {data : Str} {w : World}
    (h : (netRead s len w).1 = .ok (id, data)) :
    data.length ≤ len ∧ (netRead s len w).2.answers.net.length < w.answers.net.length := by
  rw [netRead_run] at h ⊢
  cases hk : w.socks s with
  | none => simp [hk] at h
  | some k =>
    simp only [hk] at h ⊢
    split at h
    · simp at h
    · rename_i hc
      have hlt := popNet_length (w := w.record (.waits s k.blocking)) (by omega)
      obtain ⟨-, rfl⟩ := Prod.mk.inj (Except.ok.inj h)
      rw [if_neg hc]
      exact ⟨by simp, hlt⟩

def Session.read (s : Session) : Session :=
  { s with world :=
      (netRead s.client.socket (FTP_BUFFER_SIZE - 1 - s.client.offset) s.world).2 }

theorem Session.read_story (s : Session) : s.read.story = s.story :=
  congrFun (netRead_keeps grows_sockets.toTalks _ _ s.world).hist _

def Session.got (s : Session) (id : Nat) (data : Str) : Session :=
  s.read.emitted (.recv id data)

theorem controlStep_full {s : Session} (h : FTP_BUFFER_SIZE - 1 ≤ s.client.offset) :
    controlStep s = (.inr true, s) := by
  simp +instances only [controlStep, bind_run, client_run, ite_run, pure_run, if_pos h]

theorem controlStep_busy {s : Session} (h : ¬ FTP_BUFFER_SIZE - 1 ≤ s.client.offset)
    (hcb : s.client.dataCallback.isSome) : controlStep s = (.inr false, s) := by
  simp +instances only [controlStep, bind_run, client_run, ite_run, pure_run, if_neg h, if_pos hcb]

section Read

variable {s : Session} (h : ¬ FTP_BUFFER_SIZE - 1 ≤ s.client.offset)
  (hcb : s.client.dataCallback = none)

include h hcb

theorem controlStep_error {e : Int}
    (hr : (netRead s.client.socket (FTP_BUFFER_SIZE - 1 - s.client.offset) s.world).1 = .error e) :
    controlStep s = (.inr (decide (e ≠ -EAGAIN)), s.read.emitted (.readError e)) := by
  simp +instances only [controlStep, bind_run, client_run, ite_run, pure_run, os_run, emit_run,
    if_neg h, hcb, hr, Option.isSome_none, Bool.false_eq_true, if_false, Session.read]

theorem controlStep_eof {id : Nat}
    (hr : (netRead s.client.socket (FTP_BUFFER_SIZE - 1 - s.client.offset) s.world).1 =
      .ok (id, [])) :
    controlStep s = (.inr true, s.got id []) := by
  simp +instances only [controlStep, bind_run, client_run, ite_run, pure_run, os_run, emit_run,
    if_neg h, hcb, hr, Option.isSome_none, Bool.false_eq_true, if_false, if_true, Session.got,
    Session.read]

def Session.filled (s : Session) (id : Nat) (data : Str) : Session :=
  (appendToBuffer data (s.got id data)).2

theorem controlStep_data {id : Nat} {data : Str}
    (hr : (netRead s.client.socket (FTP_BUFFER_SIZE - 1 - s.client.offset) s.world).1 =
      .ok (id, data)) (hd : data ≠ []) :
    controlStep s =
      if s.client.offset + (cstr (s.filled id data).client.buf s.client.offset).length ≠
          s.client.offset + data.length then (.inr true, s.filled id data)
      else match (processLines (s.filled id data)).1 with
        | none => (.inr true, (processLines (s.filled id data)).2)
        | some next => (.inl (), (compactBuffer next (processLines (s.filled id data)).2).2) := by
  simp +instances only [controlStep, bind_run, client_run, ite_run, pure_run, os_run, emit_run,
    if_neg h, hcb, hr, Option.isSome_none, Bool.false_eq_true, if_false, if_neg hd, appendToBuffer,
    update_run, Session.filled, Session.got, Session.read]
  split
  · rfl
  · split <;> rename_i he <;> simp only [he] <;> rfl

end Read

theorem cutting_filled {s : Session} (hf : Framed s.client s.story)
    (h : ¬ FTP_BUFFER_SIZE - 1 ≤ s.client.offset) (id : Nat) {data : Str}
    (hlen : data.length ≤ FTP_BUFFER_SIZE - 1 - s.client.offset) (hn : '\x00' ∉ data) :
    Cutting 0 (s.client.buf.take s.client.offset ++ data) (s.filled id data) := by
  have hsize := hf.size
  have h1 : (1 : Nat) ≤ FTP_BUFFER_SIZE := by decide
  have hp : s.client.offset ≤ s.client.buf.length := by omega
  have hno : '\x00' ∉ s.client.buf.take s.client.offset ++ data := by simp [hf.no_nul, hn]
  have hstored : (store s.client.buf s.client.offset data).length = s.client.buf.length :=
    length_store (by omega)
  refine ⟨holds_store rfl hp hno, ?_, ?_, ?_⟩
  · simp [Session.filled, appendToBuffer, Session.got, Session.read, hp]
  · change (store (store s.client.buf s.client.offset data) _ _).length = _
    have hgot : (s.got id data).client.offset = s.client.offset := rfl
    rw [length_store (by simp [hstored, hgot]; omega), hstored, hsize]
  · have hstory : (s.filled id data).story = s.story ++ [.recv id data] := by
      change (s.read.emitted (.recv id data)).story = _
      rw [story_emitted, s.read_story]
    rw [hstory]
    exact hf.told.recv id data

theorem compactBuffer_eq (next : Nat) (s : Session) : ∃ buf offset,
    (compactBuffer next s).2 = { s with client := { s.client with buf := buf, offset := offset } } := by
  by_cases h : next = 0
  · exact ⟨s.client.buf, s.client.offset, by simp [compactBuffer, h]⟩
  · refine ⟨store s.client.buf 0 (cstr s.client.buf next), (cstr s.client.buf next).length, ?_⟩
    simp only [compactBuffer, h, if_false, update_run]

theorem framed_compacted {next : Nat} {rest : Str} {s : Session} (hc : Cutting next rest s)
    (hfull : next = 0 → rest.length = FTP_BUFFER_SIZE - 1 → ¬ CRLF <:+: rest) :
    (compactBuffer next s).2.client.buf.take (compactBuffer next s).2.client.offset = rest ∧
      Framed (compactBuffer next s).2.client (compactBuffer next s).2.story := by
  have hlt := hc.holds.length_lt
  have hoff := hc.offset
  have hsize := hc.size
  have htake : (compactBuffer next s).2.client.buf.take (compactBuffer next s).2.client.offset =
      rest ∧ (compactBuffer next s).2.client.buf.length = FTP_BUFFER_SIZE ∧
      (compactBuffer next s).2.client.offset = rest.length ∧
      (compactBuffer next s).2.story = s.story := by
    by_cases hz : next = 0
    · subst hz
      obtain ⟨-, tail, ht⟩ := hc.holds
      have hb : s.client.buf = rest ++ '\x00' :: tail := by simpa using ht
      have ho : s.client.offset = rest.length := by omega
      refine ⟨?_, hsize, ho, rfl⟩
      change s.client.buf.take s.client.offset = rest
      rw [hb, ho]
      simp
    · simp only [compactBuffer, hz, if_false, update_run, hc.holds.cstr]
      exact ⟨take_store, by rw [length_store (by omega), hsize], trivial, trivial⟩
  obtain ⟨ht, hl, ho, hst⟩ := htake
  refine ⟨ht, ⟨?_, hl, by omega, ?_, ?_⟩⟩
  · rw [ht, hst]
    exact hc.told
  · rw [ht, ho]
    intro hr
    exact hfull (by omega) hr
  · rw [ht]
    exact hc.holds.1

section Serves

variable {J K : Session → Prop} (hJ : Serves J K)

include hJ

/-- One round of reading: it closes the client, leaves it open, or goes on. -/
theorem controlStep_outcome {s : Session} (hf : Framed s.client s.story) (hj : J s) :
    ((controlStep s).1 = .inr true ∧ K (controlStep s).2 ∧
        (Ends s (controlStep s).2 ∨
          (controlStep s).2 = s ∧ s.client.offset = FTP_BUFFER_SIZE - 1)) ∨
      ((controlStep s).1 = .inr false ∧ s.client.offset < FTP_BUFFER_SIZE - 1 ∧
        J (controlStep s).2 ∧ Framed (controlStep s).2.client (controlStep s).2.story ∧
        Quietly s (controlStep s).2 ∧ (controlStep s).2.client = s.client ∧
        (s.client.dataCallback.isSome ∨
          (netRead s.client.socket (FTP_BUFFER_SIZE - 1 - s.client.offset) s.world).1 =
            .error (-EAGAIN))) ∨
      ((controlStep s).1 = .inl () ∧ J (controlStep s).2 ∧
        Framed (controlStep s).2.client (controlStep s).2.story ∧ Quietly s (controlStep s).2 ∧
        ((controlStep s).2.client.dataCallback.isSome ∨ ¬ (controlStep s).2.client.Stranded) ∧
        (controlStep s).2.world.answers.net.length < s.world.answers.net.length) := by
  by_cases h : FTP_BUFFER_SIZE - 1 ≤ s.client.offset
  · have ho : s.client.offset = FTP_BUFFER_SIZE - 1 := le_antisymm hf.offset_le h
    rw [controlStep_full h]
    exact .inl ⟨rfl, hJ.weaken s hj, .inr ⟨rfl, ho⟩⟩
  cases hcb : s.client.dataCallback with
  | some cb =>
    have hsome : s.client.dataCallback.isSome := by simp [hcb]
    rw [controlStep_busy h hsome]
    exact .inr (.inl ⟨rfl, by omega, hj, hf, quietly_frame.refl s, rfl, .inl rfl⟩)
  | none =>
    have hjr : J s.read := hJ.read s _ hj
    cases hr : (netRead s.client.socket (FTP_BUFFER_SIZE - 1 - s.client.offset) s.world).1 with
    | error e =>
      have hstory : (s.read.emitted (.readError e)).story = s.story ++ [.readError e] := by
        rw [story_emitted, s.read_story]
      have hje : J (s.read.emitted (.readError e)) := hJ.note _ _ trivial hjr
      rw [controlStep_error h hcb hr]
      by_cases he : e = -EAGAIN
      · refine .inr (.inl ⟨by simp [he], by omega, hje, ?_, ?_, rfl, .inr (by rw [he])⟩)
        · rw [hstory]
          exact { hf with told := hf.told.readError e }
        · exact .of_story rfl hstory (by simp [Event.Closes, he])
      · exact .inl ⟨by simp [he], hJ.weaken _ hje, .inl (.of_story rfl hstory he)⟩
    | ok r =>
      obtain ⟨id, data⟩ := r
      obtain ⟨hlen, hnet⟩ := netRead_ok hr
      have hstory : (s.got id data).story = s.story ++ [.recv id data] := by
        rw [Session.got, story_emitted, s.read_story]
      have hjg : J (s.got id data) := hJ.note _ _ trivial hjr
      by_cases hd : data = []
      · subst hd
        rw [controlStep_eof h hcb hr]
        exact .inl ⟨rfl, hJ.weaken _ hjg, .inl (.of_story rfl hstory (.inl rfl))⟩
      have hjf : J (s.filled id data) := hJ.buffer _ _ _ hjg
      have hp : s.client.offset ≤ s.client.buf.length := by
        rw [hf.size]
        omega
      have hnul : (cstr (s.filled id data).client.buf s.client.offset).length = data.length ↔
          '\x00' ∉ data := cstr_store_length hp
      rw [controlStep_data h hcb hr hd]
      by_cases hn : '\x00' ∈ data
      · have hne : s.client.offset + (cstr (s.filled id data).client.buf s.client.offset).length ≠
            s.client.offset + data.length := by
          intro heq
          exact hnul.mp (by omega) hn
        rw [if_pos hne]
        exact .inl ⟨rfl, hJ.weaken _ hjf, .inl (.of_story rfl hstory (.inr hn))⟩
      have heq := hnul.mpr hn
      have hquiet : Quietly s (s.filled id data) :=
        .of_story rfl hstory (by simp [Event.Closes, hd, hn])
      have hcut := cutting_filled hf h id hlen hn
      rw [if_neg (by omega)]
      rcases processLines_outcome hJ hcut hjf with
        ⟨next, rest, he, hc, hjp, hq, hend, hz⟩ | ⟨he, hk, hends⟩
      · rw [he]
        obtain ⟨buf, offset, hcompact⟩ := compactBuffer_eq next (processLines (s.filled id data)).2
        have hdraws : Draws (s.filled id data).world (processLines (s.filled id data)).2.world :=
          processLines_keeps draws_use.control.reads (s.filled id data)
        obtain ⟨htake, hframed⟩ := framed_compacted hc fun hz' hr => by
          obtain ⟨rfl, hsame⟩ := hz hz'
          rw [hsame] at hend
          exact hend.resolve_left (by
            change ¬ s.client.dataCallback.isSome
            simp [hcb])
        refine .inr (.inr ⟨rfl, ?_, hframed, quietly_frame.trans hquiet ?_, ?_, ?_⟩)
        · rw [hcompact]
          exact hJ.buffer _ _ _ hjp
        · rw [hcompact]
          exact hq
        · refine hend.imp (fun hsome => ?_) fun hno => ?_
          · rw [hcompact]
            exact hsome
          · rw [Client.Stranded, htake]
            exact hno
        · rw [hcompact]
          exact (hdraws.net.length_le).trans_lt hnet
      · rw [he]
        exact .inl ⟨rfl, hk, .inl (hquiet.ends hends)⟩

/-- A whole call: the client is closed for a reason, or is left open with its stream framed. -/
theorem controlEvents_outcome {s : Session} (hf : Framed s.client s.story) (hj : J s) :
    ((controlEvents s).1 = true ∧ K (controlEvents s).2 ∧
        (Ends s (controlEvents s).2 ∨ Quietly s (controlEvents s).2 ∧
          Framed (controlEvents s).2.client (controlEvents s).2.story ∧
          (controlEvents s).2.client.offset = FTP_BUFFER_SIZE - 1)) ∨
      ((controlEvents s).1 = false ∧ J (controlEvents s).2 ∧
        Framed (controlEvents s).2.client (controlEvents s).2.story ∧
        Quietly s (controlEvents s).2 ∧
        (controlEvents s).2.client.offset < FTP_BUFFER_SIZE - 1 ∧
        ((controlEvents s).2.client.dataCallback.isSome ∨
          ¬ (controlEvents s).2.client.Stranded ∨
          (controlEvents s).2.client = s.client ∧
            (netRead s.client.socket (FTP_BUFFER_SIZE - 1 - s.client.offset) s.world).1 =
              .error (-EAGAIN))) := by
  have hrun : controlEvents s =
      Prog.iterate (netFuel s.world).1 (fun _ => controlStep) (fun _ => false) () s := rfl
  rw [hrun]
  -- after the first round a complete line can only be left behind a transfer
  refine iterate_rule_of_lt (fun _ t => t.world.answers.net.length)
    (I := fun _ t => Framed t.client t.story ∧ J t ∧ Quietly s t ∧
      (t.client.dataCallback.isSome ∨ ¬ t.client.Stranded ∨ t = s))
    (Q := fun b t => (b = true ∧ K t ∧ (Ends s t ∨ Quietly s t ∧ Framed t.client t.story ∧
        t.client.offset = FTP_BUFFER_SIZE - 1)) ∨
      (b = false ∧ J t ∧ Framed t.client t.story ∧ Quietly s t ∧
        t.client.offset < FTP_BUFFER_SIZE - 1 ∧
        (t.client.dataCallback.isSome ∨ ¬ t.client.Stranded ∨ t.client = s.client ∧
          (netRead s.client.socket (FTP_BUFFER_SIZE - 1 - s.client.offset) s.world).1 =
            .error (-EAGAIN)))) ?_ ?_ (netFuel s.world).1 (Nat.lt_succ_self _) (b := ()) (s := s)
    ⟨hf, hj, quietly_frame.refl s, .inr (.inr rfl)⟩
  · rintro ⟨⟩ t ⟨⟩ ⟨hft, hjt, hq, -⟩ hr
    rcases controlStep_outcome hJ hft hjt with ⟨he, -⟩ | ⟨he, -⟩ | ⟨-, hj', hf', hq', hend, hnet⟩
    · simp [he] at hr
    · simp [he] at hr
    · exact ⟨⟨hf', hj', quietly_frame.trans hq hq', hend.imp id .inl⟩, hnet⟩
  · rintro ⟨⟩ t b ⟨hft, hjt, hq, hend⟩ hr
    rcases controlStep_outcome hJ hft hjt with
      ⟨he, hk, hcl⟩ | ⟨he, hlt, hj', hf', hq', hsame, hstop⟩ | ⟨he, -⟩
    · obtain rfl : true = b := by simpa [he] using hr
      refine .inl ⟨rfl, hk, ?_⟩
      rcases hcl with hends | ⟨hsame, ho⟩
      · exact .inl (hq.ends hends)
      · rw [hsame]
        exact .inr ⟨hq, hft, ho⟩
    · obtain rfl : false = b := by simpa [he] using hr
      refine .inr ⟨rfl, hj', hf', quietly_frame.trans hq hq', hsame ▸ hlt, ?_⟩
      rw [hsame]
      rcases hend with hcb | hno | rfl
      · exact .inl hcb
      · exact .inr (.inl hno)
      · exact hstop.imp id fun hread => .inr ⟨rfl, hread⟩
    · simp [he] at hr

end Serves

end Ftpii
