import Ftpii.Uploads
set_option autoImplicit false

/-!
What a download delivers: one chunk of the file for each call of send_from_file, until the
file ends or a send fails.
-/

namespace Ftpii
open StateProgram Prog

/-! ## One chunk -/

/-- What fread returns of the bytes that are left. -/
def FileAnswer.chunk (a : FileAnswer) (rest : Str) (len : Nat) : Str :=
  if a.code < 0 then rest.take (min a.count len) else rest.take len

theorem FileAnswer.chunk_prefix (a : FileAnswer) (rest : Str) (len : Nat) :
    a.chunk rest len <+: rest := by
  unfold FileAnswer.chunk
  split
  · exact List.take_prefix _ _
  · exact List.take_prefix _ _

theorem FileAnswer.chunk_le (a : FileAnswer) (rest : Str) (len : Nat) :
    (a.chunk rest len).length ≤ len := by
  unfold FileAnswer.chunk
  split
  · exact (List.length_take_le _ _).trans (Nat.min_le_right _ _)
  · exact List.length_take_le _ _

/-- Without an error a short chunk is all that is left. -/
theorem FileAnswer.chunk_short {a : FileAnswer} {rest : Str} {len : Nat} (ha : ¬ a.code < 0)
    (h : (a.chunk rest len).length < len) : a.chunk rest len = rest := by
  rw [FileAnswer.chunk, if_neg ha] at h ⊢
  rw [List.length_take] at h
  exact List.take_of_length_le (by omega)

def World.advance (w : World) (h : Nat) (st : Stream) (n : Nat) (eof : Bool) : World :=
  w.drawFile.setStream h { st with pos := st.pos + n, eof := eof }

theorem fread_run {h : Nat} {path : Str} {mode : Mode} {content : Str} {w : World} {st : Stream}
    (hst : w.streams h = some st) (ht : st.target = .file path mode)
    (hc : w.disk path = some content) (len : Nat) :
    fread h len w =
      let data := w.fileOutcome.chunk (content.drop st.pos) len
      (data, w.advance h st data.length (decide (0 ≤ w.fileOutcome.code ∧ data.length < len))) := by
  obtain ⟨target, pos, start, pending, eof, closes⟩ := st
  obtain rfl : target = .file path mode := ht
  have hst' : w.drawFile.streams h = some ⟨.file path mode, pos, start, pending, eof, closes⟩ := hst
  have hc' : w.drawFile.disk path = some content := hc
  simp only [fread, bind_run, fileAnswer_run, get_run, hst', hc', modify_run, pure_run]
  rfl

/-- What one call of send_from_file delivers on its data socket. -/
def World.delivered (w : World) (fd : Int) (f : Nat) : Str :=
  match w.socks fd with
  | none => []
  | some k => ((sendFromFile fd f w).2.sent k.id).drop (w.sent k.id).length

theorem sendChunk_outcome (fd : Int) (data : Str) {v : World} (hno : -EAGAIN ∉ v.answers.writes) :
    let q := if 0 < data.length then sendExact fd data v else (0, v)
    let d := match v.socks fd with
      | none => []
      | some k => (q.2.sent k.id).drop (v.sent k.id).length
    SameStreams v q.2 ∧ (q.1 = 0 ∧ d = data ∨ q.1 < 0 ∧ q.1 ≠ -EAGAIN ∧ d <+: data) := by
  by_cases hlen : 0 < data.length
  · have hsame : SameStreams v (sendExact fd data v).2 :=
      sendExact_keeps sameStreams_sockets.toSends trivial data v
    have hne := List.ne_nil_of_length_pos hlen
    simp only [if_pos hlen]
    refine ⟨hsame, ?_⟩
    cases hk : v.socks fd with
    | none =>
      rw [sendExact_closed hk, if_neg hne]
      have herror : -EBADF < 0 ∧ -EBADF ≠ -EAGAIN := by decide
      exact .inr ⟨herror.1, herror.2, List.nil_prefix⟩
    | some k =>
      obtain ⟨n, hsent, hend⟩ := sendExact_sent hk data
      have hd : ((sendExact fd data v).2.sent k.id).drop (v.sent k.id).length = data.take n := by
        simp [hsent.sent]
      simp only [hd]
      rcases hend with ⟨hr, hn⟩ | ⟨hr, -, hagain⟩
      · exact .inl ⟨hr, by rw [hn, List.take_length]⟩
      · exact .inr ⟨hr, fun he => hno (hagain he), List.take_prefix _ _⟩
  · have hnil : data = [] := List.eq_nil_of_length_eq_zero (by omega)
    subst hnil
    simp only [List.length_nil, lt_irrefl, if_false]
    refine ⟨⟨rfl, rfl⟩, .inl ⟨trivial, ?_⟩⟩
    cases v.socks fd with
    | none => rfl
    | some k => simp

/-- A call of send_from_file goes on behind the chunk it delivered, reports success once everything
is delivered, and otherwise delivered a part of what was left. -/
theorem sendFromFile_delivered {f : Nat} {path content : Str} {pos : Nat} {fd : Int} {w : World}
    (hw : OnFile f path .rb content pos [] w) (hno : -EAGAIN ∉ w.answers.writes) :
    let r := sendFromFile fd f w
    let d := w.delivered fd f
    (r.1 = -EAGAIN → content.drop pos = d ++ content.drop (pos + d.length) ∧
      StreamAt f path .rb (pos + d.length) [] r.2) ∧
    (r.1 = 0 → d = content.drop pos) ∧ d <+: content.drop pos ∧ r.1 ≤ 0 := by
  obtain ⟨⟨st, hst, ht, hpending, hpos⟩, hc⟩ := hw
  obtain rfl := hpos (by decide)
  let a := w.fileOutcome
  let data := a.chunk (content.drop st.pos) FREAD_BUFFER_SIZE
  let eof := decide (0 ≤ a.code ∧ data.length < FREAD_BUFFER_SIZE)
  let v := w.advance f st data.length eof
  have hread : fread f FREAD_BUFFER_SIZE w = (data, v) := fread_run hst ht hc _
  have hprefix : data <+: content.drop st.pos := a.chunk_prefix _ _
  obtain ⟨hsame, hsent⟩ := sendChunk_outcome fd data (v := v) hno
  let q := if 0 < data.length then sendExact fd data v else (0, v)
  have hrun : sendFromFile fd f w =
      if q.1 < 0 then q
      else if data.length < FREAD_BUFFER_SIZE then (if (feof f q.2).1 then 0 else -1, q.2)
      else (-EAGAIN, q.2) := by
    rw [sendFromFile_run, hread]
  have hworld : (sendFromFile fd f w).2 = q.2 := by
    rw [hrun]
    split
    · rfl
    · split <;> rfl
  have hd : w.delivered fd f = match v.socks fd with
      | none => []
      | some k => (q.2.sent k.id).drop (v.sent k.id).length := by
    rw [World.delivered, hworld]
    rfl
  have hstream : StreamAt f path .rb (st.pos + data.length) [] q.2 := by
    refine ⟨{ st with pos := st.pos + data.length, eof := eof }, ?_, ht, hpending, fun _ => rfl⟩
    rw [hsame.1]
    simp [v, World.advance, World.setStream]
  have heof : (feof f q.2).1 = eof := by
    have hs : q.2.streams f = some { st with pos := st.pos + data.length, eof := eof } := by
      rw [hsame.1]
      simp [v, World.advance, World.setStream]
    simp [feof, hs]
  have hrest (he : eof = true) : data = content.drop st.pos := by
    obtain ⟨hok, hshort⟩ := of_decide_eq_true he
    exact FileAnswer.chunk_short (by omega) hshort
  rw [hd, hrun]
  rcases hsent with ⟨hr, hall⟩ | ⟨hr, hagain, hpart⟩
  · have hq : q.1 = 0 := hr
    rw [hall, if_neg (by omega)]
    refine ⟨fun hgo => ?_, fun hdone => ?_, hprefix, ?_⟩
    · split at hgo
      · split at hgo <;> simp [EAGAIN] at hgo
      · rename_i hfull
        rw [if_neg hfull]
        have hrest := (List.prefix_iff_eq_append.mp hprefix).symm
        rw [List.drop_drop] at hrest
        exact ⟨hrest, hstream⟩
    · split at hdone
      · split at hdone
        · rename_i he
          exact hrest (heof.symm.trans he)
        · simp at hdone
      · simp [EAGAIN] at hdone
    · split
      · split <;> simp
      · simp [EAGAIN]
  · have hq : q.1 < 0 := hr
    rw [if_pos hq]
    exact ⟨fun hgo => absurd hgo hagain, fun hdone => by omega, hpart.trans hprefix, hq.le⟩

/-! ## Downloads over many calls -/

/-- The client's transfer is a download from this stream. -/
abbrev Session.Downloads (s : Session) (f : Nat) : Prop := s.Holds .sendFromFile f .fclose

theorem Session.Downloads.connected {s : Session} {f : Nat} (h : s.Downloads f)
    (hc : s.client.dataConnectionConnected = true) (w : World) :
    dataStep ⟨s.client, w⟩ = ((sendFromFile s.client.dataSocket f w).1,
      ⟨s.client, (sendFromFile s.client.dataSocket f w).2⟩) :=
  Session.Transferring.step ⟨hc, h.callback, h.arg⟩ w

theorem puts_awaits {s : Session} {w : World} (hc : s.client.dataConnectionConnected = false)
    (hsplit : s.client.Split w) : s.Puts w [] ∧ s.delivered w = [] := by
  have hsent := (dataStep_awaits (s := ⟨s.client, w⟩) hc).1
  have hputs : s.Puts w [] := Session.puts hsplit fun k _ => by rw [hsent, List.append_nil]
  refine ⟨hputs, ?_⟩
  cases hk : w.socks s.client.dataSocket with
  | none => simp [Session.delivered, hk]
  | some k => exact hputs.delivered hk

theorem Session.Downloads.puts {s : Session} {f : Nat} (h : s.Downloads f) {w : World}
    (hc : s.client.dataConnectionConnected = true) (hsplit : s.client.Split w) :
    s.Puts w (w.delivered s.client.dataSocket f) ∧
      s.delivered w = w.delivered s.client.dataSocket f := by
  obtain ⟨data, -, hdata⟩ := @attempts_putOut .sendFromFile (by decide) s.client.dataSocket f w
  have hputs : s.Puts w (w.delivered s.client.dataSocket f) := by
    refine Session.puts hsplit fun k hk => ?_
    have hgrow : (sendFromFile s.client.dataSocket f w).2.sent k.id = w.sent k.id ++ data :=
      hdata k hk
    rw [h.connected hc w, hgrow]
    simp [World.delivered, hk, hgrow]
  refine ⟨hputs, ?_⟩
  cases hk : w.socks s.client.dataSocket with
  | none => simp [Session.delivered, World.delivered, hk]
  | some k => exact hputs.delivered hk

/-- One call of a download: it goes on behind what it delivered, is answered 226 once everything is
delivered, and delivers in order in any case. -/
theorem Session.Downloads.call {s : Session} {f : Nat} (h : s.Downloads f) {path content : Str}
    {pos : Nat} {w : World} (hw : OnFile f path .rb content pos [] w)
    (hno : -EAGAIN ∉ w.answers.writes) (hsplit : s.client.Split w) :
    let t := ClientEvent.step s (w, .data)
    let d := s.delivered w
    (t.client.dataCallback.isSome → t.Downloads f ∧ ¬ s.Answers w 226 ∧
      content.drop pos = d ++ content.drop (pos + d.length) ∧
      StreamAt f path .rb (pos + d.length) [] t.world) ∧
    (s.Answers w 226 → d = content.drop pos) ∧ d <+: content.drop pos := by
  obtain ⟨hend, hgo⟩ := step_data_outcome s w
  let a := dataStep ⟨s.client, w⟩
  have hover (hs : (ClientEvent.step s (w, .data)).client.dataCallback.isSome) :
      ¬ (a.1 ≤ 0 ∧ a.1 ≠ -EAGAIN) := by
    intro ho
    rw [(hend ho).2.1] at hs
    simp at hs
  cases hc : s.client.dataConnectionConnected with
  | false =>
    have hsame : SameStreams w a.2.world := dataStep_waits (s := ⟨s.client, w⟩) sameStreams_sockets hc
    obtain ⟨hr, hup⟩ := (h.within w).waits hc
    simp only [(puts_awaits hc hsplit).2]
    refine ⟨fun hs => ?_, fun hans => absurd ((answers_226_iff s w).mp hans) hr, List.nil_prefix⟩
    obtain ⟨ht, hno⟩ := hgo (hover hs)
    rw [ht]
    exact ⟨hup, hno 226, rfl, hw.stream.same (congrFun hsame.1 f)⟩
  | true =>
    have hstep := h.connected hc w
    have hr : a.1 = (sendFromFile s.client.dataSocket f w).1 := congrArg Prod.fst hstep
    obtain ⟨hagain, hdone, hpart, hle⟩ :=
      @sendFromFile_delivered f path content pos s.client.dataSocket w hw hno
    simp only [(h.puts hc hsplit).2]
    refine ⟨fun hs => ?_, fun hans => hdone (hr ▸ (answers_226_iff s w).mp hans), hpart⟩
    obtain ⟨ht, hno⟩ := hgo (hover hs)
    have hcode : (sendFromFile s.client.dataSocket f w).1 = -EAGAIN := by
      by_contra hne
      exact hover hs ⟨hr ▸ hle, hr ▸ hne⟩
    obtain ⟨hrest, hstream⟩ := hagain hcode
    refine ⟨?_, hno 226, hrest, ?_⟩
    · rw [ht, hstep]
      exact h.within _
    · rw [ht, hstep]
      exact hstream

/-- Between two calls nobody uses the stream or changes the file, no write on the socket put in
blocking mode reports that it would block, and the data socket is not the control socket. -/
def Session.Fetched (f : Nat) (path content : Str) : Session → List World → Prop :=
  Session.During fun s w => w.streams f = s.world.streams f ∧ w.disk path = some content ∧
    -EAGAIN ∉ w.answers.writes ∧ s.client.Split w

def Session.downloaded : Session → List World → Str := Session.collect Session.delivered

/-- In each of these calls the data socket was sent what was delivered, and no other socket any but a
reply. -/
def Session.Outgoing (s : Session) (ws : List World) : Prop :=
  ∀ pre w post, ws = pre ++ w :: post → (s.turns pre).Puts w ((s.turns pre).delivered w)

theorem Session.Fetched.outgoing {f : Nat} {path content : Str} {ws : List World} {s : Session}
    {pos : Nat} (h : s.Downloads f) (hst : StreamAt f path .rb pos [] s.world)
    (hf : s.Fetched f path content ws) : s.Outgoing ws := by
  intro pre w post he
  induction pre generalizing s pos ws with
  | nil =>
    obtain rfl : ws = w :: post := he
    obtain ⟨-, ⟨-, -, -, hsplit⟩, -⟩ := hf
    change s.Puts w (s.delivered w)
    cases hc : s.client.dataConnectionConnected with
    | true =>
      obtain ⟨hputs, hd⟩ := h.puts hc hsplit
      rw [hd]
      exact hputs
    | false =>
      obtain ⟨hputs, hd⟩ := puts_awaits hc hsplit
      rw [hd]
      exact hputs
  | cons u pre ih =>
    obtain rfl : ws = u :: (pre ++ w :: post) := he
    obtain ⟨-, ⟨hsame, hcontent, hno, hsplit⟩, hrest⟩ := hf
    obtain ⟨hup, -, -, hstream⟩ := (h.call ⟨hst.same hsame, hcontent⟩ hno hsplit).1 hrest.goes
    exact ih hup hstream hrest rfl

theorem Session.Fetched.downloaded {f : Nat} {path content : Str} {pre : List World} {w : World}
    {s : Session} {pos : Nat} (h : s.Downloads f) (hst : StreamAt f path .rb pos [] s.world)
    (hf : s.Fetched f path content (pre ++ [w])) :
    ((s.turns pre).Answers w 226 → s.downloaded (pre ++ [w]) = content.drop pos) ∧
      s.downloaded (pre ++ [w]) <+: content.drop pos := by
  induction pre generalizing s pos with
  | nil =>
    obtain ⟨-, ⟨hsame, hcontent, hno, hsplit⟩, -⟩ := hf
    obtain ⟨-, hdone, hpart⟩ := h.call ⟨hst.same hsame, hcontent⟩ hno hsplit
    have hd : s.downloaded ([] ++ [w]) = s.delivered w := by
      simp [Session.downloaded, Session.collect]
    rw [hd]
    exact ⟨hdone, hpart⟩
  | cons u pre ih =>
    obtain ⟨-, ⟨hsame, hcontent, hno, hsplit⟩, hrest⟩ := hf
    obtain ⟨hup, -, hleft, hstream⟩ :=
      (h.call ⟨hst.same hsame, hcontent⟩ hno hsplit).1 hrest.goes
    obtain ⟨hdone, hpart⟩ := ih hup hstream hrest
    have hd : s.downloaded (u :: pre ++ [w]) =
        s.delivered u ++ (ClientEvent.step s (u, .data)).downloaded (pre ++ [w]) := rfl
    rw [hd, hleft]
    refine ⟨fun hans => ?_, ?_⟩
    · rw [hdone hans]
    · rw [List.prefix_append_right_inj]
      exact hpart

theorem ftpRetr_begins {path : Str} {s : Session} (hcb : s.client.dataCallback = none)
    (hgo : (ftpRetr path s).2.client.dataCallback ≠ none) :
    ∃ real content, (toRealPath s.client.cwd path s.world).1 = some real ∧
      s.world.disk real = some content ∧ (ftpRetr path s).2.Downloads s.world.nextStream ∧
      StreamAt s.world.nextStream real .rb s.client.restartMarker.toNat [] (ftpRetr path s).2.world := by
  rw [ftpRetr_run] at hgo ⊢
  rcases vrtFopen_cases s.client.cwd path .rb s.world with ⟨hn, -⟩ | ⟨real, w', hreal, hl, hrb, hrun⟩
  · rw [hn] at hgo
    exact absurd hcb hgo
  · rw [hrun] at hgo ⊢
    obtain ⟨content, hcontent⟩ := Option.isSome_iff_exists.mp (hrb rfl)
    let f := s.world.nextStream
    let v := w'.opened (.file real .rb) (Mode.openDisk .rb s.world.disk real)
    let st : Stream := { target := .file real .rb }
    have hst : v.streams f = some st := by simp [v, f, st, World.opened, hl.nextStream]
    let t := seekToMarker f (transfer .sendFromFile f .fclose) ⟨s.client, v⟩
    change t.2.client.dataCallback ≠ none at hgo
    change ∃ real content, (toRealPath s.client.cwd path s.world).1 = some real ∧
      s.world.disk real = some content ∧ t.2.Downloads f ∧
      StreamAt f real .rb s.client.restartMarker.toNat [] t.2.world
    obtain ⟨hr, hseek⟩ := seekToMarker_started (s := ⟨s.client, v⟩) hcb hgo
    obtain ⟨-, start, eof, hst'⟩ := seek_reaches hst rfl hr
    let u := (seek f s.client.restartMarker v).2
    let v' : Session := ⟨{ s.client with restartMarker := 0 }, u⟩
    have ht : t = transfer .sendFromFile f .fclose v' := hseek
    rw [ht] at hgo ⊢
    obtain ⟨hstart, hfiles⟩ := transfer_started (s := v') hcb hgo
    have hs := (congrFun hfiles.streams f).trans hst'
    exact ⟨real, content, hreal, hcontent, hstart, _, hs, rfl, rfl, fun _ => rfl⟩

/-- For every RETR that starts a transfer and every sequence of outcomes: the bytes that went out on
the data socket are the file from the marker on if it is answered 226, and a prefix of that if it is
answered 520; no other socket is sent any but a reply. -/
theorem download_integrity {s : Session} {w : World} {line : Str}
    (ha : s.client.authenticated = true) (hn : Named "RETR" line)
    (hcb : s.client.dataCallback = none)
    (hgo : (ClientEvent.step s (w, .command line)).client.dataCallback ≠ none) :
    let t := ClientEvent.step s (w, .command line)
    let f := w.nextStream
    ∃ path content,
      (toRealPath s.client.cwd (argument line) (s.handed w line).world).1 = some path ∧
      w.disk path = some content ∧ ∀ pre w', t.Fetched f path content (pre ++ [w']) →
        t.Outgoing (pre ++ [w']) ∧
        ((t.turns pre).Answers w' 226 →
          t.downloaded (pre ++ [w']) = content.drop s.client.restartMarker.toNat) ∧
        ((t.turns pre).Answers w' 520 →
          t.downloaded (pre ++ [w']) <+: content.drop s.client.restartMarker.toNat) := by
  rw [step_retr ha hn] at hgo ⊢
  obtain ⟨path, content, hpath, hcontent, hup, hst⟩ :=
    ftpRetr_begins (s := s.handed w line) hcb hgo
  refine ⟨path, content, hpath, hcontent, fun pre w' hf => ?_⟩
  obtain ⟨hdone, hpart⟩ := hf.downloaded hup hst
  exact ⟨hf.outgoing hup hst, hdone, fun _ => hpart⟩

/-- RETR from the second byte on. -/
def fetching : Session :=
  ClientEvent.step (ClientEvent.step uploader (filed "abc".toList, .command "REST 1".toList))
    ((filed "abc".toList).facing { net := [{ code := 5 }, {}] }, .command "RETR /sd/f".toList)

/-- The connection is made, then writes come to this. -/
def Session.sending (t : Session) (writes : List Int) : World :=
  (ClientEvent.step t (t.joining, .data)).world.facing { writes := writes }

theorem fetching_run :
    let w := (filed "abc".toList).facing { net := [{ code := 5 }, {}] }
    let marked := ClientEvent.step uploader (filed "abc".toList, .command "REST 1".toList)
    let joined := ClientEvent.step fetching (fetching.joining, .data)
    fetching.client.dataCallback.isSome ∧
      fetching.world.disk "sd:/f".toList = some "abc".toList ∧ joined.client.dataCallback.isSome ∧
      joined.world.disk "sd:/f".toList = some "abc".toList ∧
      marked.client.authenticated = true ∧ marked.client.dataCallback = none ∧
      (toRealPath marked.client.cwd (argument "RETR /sd/f".toList)
        (marked.handed w "RETR /sd/f".toList).world).1 = some "sd:/f".toList ∧
      (dataStep ⟨joined.client, fetching.sending [1]⟩).1 = 0 ∧
      w.disk "sd:/f".toList = some "abc".toList ∧
      fetching.client.Split fetching.joining ∧ joined.client.Split (fetching.sending [1]) ∧
      "abc".toList.drop marked.client.restartMarker.toNat = "bc".toList := by decide +kernel

theorem fetching_fetched : fetching.Fetched 0 "sd:/f".toList "abc".toList
    ([fetching.joining] ++ [fetching.sending [1]]) := by
  obtain ⟨hgo, hfile, hgo', hfile', -, -, -, -, -, hsplit, hsplit', -⟩ := fetching_run
  exact ⟨hgo, ⟨rfl, hfile, by decide, hsplit⟩, hgo', ⟨rfl, hfile', by decide, hsplit'⟩, trivial⟩

theorem download_integrity_resumed :
    fetching.Outgoing ([fetching.joining] ++ [fetching.sending [1]]) ∧
      fetching.downloaded ([fetching.joining] ++ [fetching.sending [1]]) = "bc".toList := by
  let w := (filed "abc".toList).facing { net := [{ code := 5 }, {}] }
  let s := ClientEvent.step uploader (filed "abc".toList, .command "REST 1".toList)
  obtain ⟨hgo, -, -, -, ha, hcb, hreal, hdone, hfile, -, -, hmark⟩ := fetching_run
  have hn : Named "RETR" "RETR /sd/f".toList := by decide
  have ht : ClientEvent.step s (w, .command "RETR /sd/f".toList) = fetching := rfl
  have hbegun : (ClientEvent.step s (w, .command "RETR /sd/f".toList)).client.dataCallback ≠
      none := by
    rw [ht]
    exact Option.isSome_iff_ne_none.mp hgo
  obtain ⟨path, content, hpath, hcontent, h⟩ := download_integrity (s := s) (w := w) ha hn hcb hbegun
  obtain rfl : "sd:/f".toList = path := Option.some.inj (hreal.symm.trans hpath)
  obtain rfl : "abc".toList = content := Option.some.inj (hfile.symm.trans hcontent)
  rw [ht] at h
  have hans : (fetching.turns [fetching.joining]).Answers (fetching.sending [1]) 226 := by
    rw [answers_226_iff]
    exact hdone
  obtain ⟨hout, hall, -⟩ := h [fetching.joining] (fetching.sending [1]) fetching_fetched
  have hbytes := hall hans
  rw [hmark] at hbytes
  exact ⟨hout, hbytes⟩

end Ftpii
