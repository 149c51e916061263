import Ftpii.Framing
set_option autoImplicit false

/-!
What the events of every connection have in common over whole runs, from what one
client's turn adds to its own.
-/

namespace Ftpii
open StateProgram Prog

def SameTexts (w w' : World) : Prop := w'.strerror = w.strerror

theorem sameTexts_frame : Frame SameTexts where
  refl _ := rfl
  trans h h' := Eq.trans h' h

theorem SameStatics.texts {w w' : World} (h : SameStatics w w') : SameTexts w w' := h.1

theorem sameTexts_sockets : UsesSockets SameTexts :=
  sameStatics_sockets.imp sameTexts_frame fun _ _ h => h.texts

theorem sameTexts_use : WorldUse SameTexts where
  sockets := sameTexts_sockets
  streams := sameStatics_streams.imp sameTexts_frame fun _ _ h => h.texts
  devices := (sameStatics_devices.imp sameTexts_frame fun _ _ h => h.texts).mounts
  emit _ _ _ := rfl
  statics _ _ _ _ _ := rfl

theorem turn_sameTexts (c : Client) : Keeps (OnWorld SameTexts) (turn c) :=
  .ite (dataEvents_keeps sameTexts_use.data) (controlEvents_keeps sameTexts_use.control.reads)

theorem closeSockets_sameTexts : Keeps (OnWorld SameTexts) closeSockets :=
  closeSockets_keeps sameTexts_use.data.releases fun _ _ => sameTexts_frame.refl _

theorem Idle.sameTexts {w w' : World} (h : Idle w w') : SameTexts w w' := by
  obtain ⟨a, e, d, r, l, rfl, -⟩ := h
  rfl

theorem Network.sameTexts {w w' : World} (h : Network w w') : SameTexts w w' :=
  h SameTexts sameTexts_sockets fun _ => rfl

theorem writeReply_run (code : Nat) (msg : Str) (s : Session) :
    writeReply code msg s =
      let r := sendExact s.client.socket (replyText code msg) s.world
      (r.1, Session.emitted ⟨s.client, r.2⟩ (.reply code msg r.1)) := rfl

theorem writeReply_story (code : Nat) (msg : Str) (s : Session) :
    (writeReply code msg s).2.story = s.story ++ [.reply code msg (writeReply code msg s).1] := by
  have hs : Grows s.world (sendExact s.client.socket (replyText code msg) s.world).2 :=
    sendExact_keeps (grows_sockets.toSends.mono fun _ _ => trivial) rfl _ s.world
  rw [writeReply_run, story_emitted, Session.story, hs.hist]

theorem greeted_hist {s : Server} (h : WellFormed s) {w w' : World} {peer : Int}
    (hi : Idle s.world w) (hi' : Idle (w.openedSock peer) w') (address : SockAddr) :
    (greeted w' peer address).client.conn = s.world.nextSock ∧
      (∀ j, j ≠ s.world.nextSock →
        (greeted w' peer address).world.hist j = s.world.hist j) ∧
      (greeted w' peer address).story = [.reply 220 "ftpii".toList
        (writeReply 220 "ftpii".toList ⟨newClient w' peer address, w'⟩).1] := by
  have hopen : Grows w (w.openedSock peer) := ⟨Nat.le_succ _, rfl⟩
  have hgrow := grows_frame.trans hi.grows (grows_frame.trans hopen hi'.grows)
  have hconn : (newClient w' peer address).conn = s.world.nextSock := by
    rw [newClient_conn hi', hi.nextSock]
  have hempty : (⟨newClient w' peer address, w'⟩ : Session).story = [] := by
    rw [Session.story, hconn, hgrow.hist]
    exact h.quiet _ le_rfl
  have hstory := writeReply_story 220 "ftpii".toList ⟨newClient w' peer address, w'⟩
  rw [hempty] at hstory
  refine ⟨hconn, fun j hj => ?_, hstory⟩
  have hj' : j ≠ (newClient w' peer address).conn := hconn.symm ▸ hj
  exact ((greeted_apart w' peer address).hist j hj').trans (congrFun hgrow.hist j)

/-! ## Framing over turns -/

theorem Framed.answers {c c' : Client} {h es : List Event} (hf : Framed c h)
    (hc : c.SameControl c') (hes : ∀ e ∈ es, e.IsAnswer) : Framed c' (h ++ es) where
  told := by
    rw [hc.buf, hc.offset]
    exact hf.told.answers hes
  size := hc.buf ▸ hf.size
  offset_le := hc.offset ▸ hf.offset_le
  full := by
    rw [hc.buf, hc.offset]
    exact hf.full
  no_nul := by
    rw [hc.buf, hc.offset]
    exact hf.no_nul

theorem newClient_framed (w : World) (peer : Int) (address : SockAddr) {h : List Event}
    (hh : ∀ e ∈ h, e.IsAnswer) : Framed (newClient w peer address) h where
  told := by
    have ht := told_nil.answers hh
    simpa [newClient] using ht
  size := by simp [newClient]
  offset_le := Nat.zero_le _
  full h := by
    have h0 : (newClient w peer address).offset = 0 := rfl
    rw [h0] at h
    exact absurd h (by decide)
  no_nul := by simp [newClient]

/-! ## From a client's turns to runs -/

/-- J is kept of a client and its connection's events while it stays, K of the events of every
connection. -/
structure Conversation (texts : Int → Str) (J : Client → List Event → Prop)
    (K : List Event → Prop) : Prop where
  start : K []
  greeting : ∀ r, K [.reply 220 "ftpii".toList r]
  arrive : ∀ w peer address r, J (newClient w peer address) [.reply 220 "ftpii".toList r]
  weaken : ∀ c h, J c h → K h
  note : ∀ c h e, Event.IsFraming e → J c h → J c (h ++ [e])
  leaving : ∀ h e, Event.IsFraming e → K h → K (h ++ [e])
  buffer : ∀ (c : Client) h buf offset, J c h → J { c with buf := buf, offset := offset } h
  command : ∀ (s : Session) l, s.world.strerror = texts → J s.client s.story →
    s.client.dataCallback = none → l ≠ [] → '\n' ∉ l → K (processCommand l s).2.story ∧
      (0 ≤ (processCommand l s).1 → J (processCommand l s).2.client (processCommand l s).2.story)
  data : ∀ s : Session, s.world.strerror = texts → J s.client s.story →
    s.client.dataCallback.isSome → K (dataEvents s).2.story ∧
      ((dataEvents s).1 = false → J (dataEvents s).2.client (dataEvents s).2.story)
  dismiss : ∀ c h r, J c h →
    K (h ++ [.reply 421 "Service not available, closing control connection.".toList r])

/-- Every client's stream is framed, J holds of it and K of all events. -/
structure Recorded (texts : Int → Str) (J : Client → List Event → Prop) (K : List Event → Prop)
    (s : Server) : Prop where
  texts : s.world.strerror = texts
  clients : ∀ p c, s.heap p = some c → Framed c (s.world.hist c.conn) ∧ J c (s.world.hist c.conn)
  events : ∀ k, K (s.world.hist k)

section Conversation

variable {texts : Int → Str} {J : Client → List Event → Prop} {K : List Event → Prop}

/-- Steps that touch no client and no events. -/
theorem Recorded.grow {s s' : Server} (h : Recorded texts J K s) (hh : s'.heap = s.heap)
    (hg : Grows s.world s'.world) (ht : SameTexts s.world s'.world) : Recorded texts J K s' := by
  refine ⟨Eq.trans ht h.texts, ?_, ?_⟩
  · rw [hh, hg.hist]
    exact h.clients
  · rw [hg.hist]
    exact h.events

/-- Events are added to one connection, and its client may have changed. -/
theorem Recorded.adds {s s' : Server} (h : Recorded texts J K s) {k : Nat}
    (htexts : SameTexts s.world s'.world)
    (hist : ∀ j, j ≠ k → s'.world.hist j = s.world.hist j) (hk : K (s'.world.hist k))
    (clients : ∀ q d, s'.heap q = some d → s.heap q = some d ∧ d.conn ≠ k ∨
      Framed d (s'.world.hist d.conn) ∧ J d (s'.world.hist d.conn)) : Recorded texts J K s' := by
  refine ⟨Eq.trans htexts h.texts, fun q d hd => ?_, fun j => ?_⟩
  · rcases clients q d hd with ⟨hd', hne⟩ | hnew
    · rw [hist d.conn hne]
      exact h.clients q d hd'
    · exact hnew
  · by_cases hj : j = k
    · exact hj ▸ hk
    · rw [hist j hj]
      exact h.events j

/-- A client's last events, and what its sockets' closing leaves of them. -/
theorem Recorded.leave {s : Server} (hs : Recorded texts J K s) (h : WellFormed s)
    (i : Fin MAX_CLIENTS) {p : Nat} {c : Client} {t : Session} (hp : s.heap p = some c) (ht : Apart ⟨c, s.world⟩ t) (htexts : SameTexts s.world t.world)
    (hk : K t.story) :
    Recorded texts J K ((s.withSession p t).without i p (closeSockets t).2.world) := by
  have hclose : Grows t.world (closeSockets t).2.world := closeSockets_grows t
  refine hs.adds (k := c.conn) (sameTexts_frame.trans htexts (closeSockets_sameTexts t)) ?_ ?_ ?_
  · intro j hj
    exact (congrFun hclose.hist j).trans (ht.hist j hj)
  · change K ((closeSockets t).2.world.hist c.conn)
    rw [hclose.hist, ← ht.conn]
    exact hk
  · intro q d hd
    by_cases hq : q = p
    · simp [Server.without, hq] at hd
    · have hd' : s.heap q = some d := by
        simpa [Server.without, Server.withSession, hq] using hd
      exact .inl ⟨hd', fun he => hq (h.conns q p d c hd' hp he)⟩

variable (hC : Conversation texts J K)

include hC

theorem Conversation.serves :
    Serves (fun s => s.world.strerror = texts ∧ J s.client s.story) fun s => K s.story where
  weaken s hj := hC.weaken _ _ hj.2
  read s n hj := by
    have hr : Grows s.world (netRead s.client.socket n s.world).2 :=
      netRead_keeps grows_sockets.toTalks _ _ _
    refine ⟨Eq.trans (netRead_keeps sameTexts_sockets.toTalks _ _ _) hj.1, ?_⟩
    rw [Session.story, hr.hist]
    exact hj.2
  note s e he hj := by
    refine ⟨hj.1, ?_⟩
    rw [story_emitted]
    exact hC.note _ _ e he hj.2
  leaving s e he hk := by
    rw [story_emitted]
    exact hC.leaving _ e he hk
  buffer s buf offset hj := ⟨hj.1, hC.buffer _ _ buf offset hj.2⟩
  command s l hj hcb hl hn := by
    obtain ⟨hk, hstay⟩ := hC.command s l hj.1 hj.2 hcb hl hn
    exact ⟨hk, fun hr => ⟨Eq.trans (sameTexts_use.command l s) hj.1, hstay hr⟩⟩

theorem Conversation.turn {c : Client} {w : World} (ht : w.strerror = texts)
    (hf : Framed c (w.hist c.conn)) (hj : J c (w.hist c.conn)) :
    K (turn c ⟨c, w⟩).2.story ∧ ((turn c ⟨c, w⟩).1 = false →
      Framed (turn c ⟨c, w⟩).2.client (turn c ⟨c, w⟩).2.story ∧
        J (turn c ⟨c, w⟩).2.client (turn c ⟨c, w⟩).2.story) := by
  unfold Ftpii.turn
  split
  · rename_i hcb
    obtain ⟨hk, hstay⟩ := hC.data ⟨c, w⟩ ht hj hcb
    obtain ⟨es, he, ha⟩ := (dataEvents_answering ⟨c, w⟩).story
    refine ⟨hk, fun hr => ⟨?_, hstay hr⟩⟩
    rw [he]
    exact hf.answers (dataEvents_answering ⟨c, w⟩).control ha
  · rcases controlEvents_outcome hC.serves (s := ⟨c, w⟩) hf ⟨ht, hj⟩ with
      ⟨hr, hk, -⟩ | ⟨-, hj', hf', -⟩
    · exact ⟨hk, by simp [hr]⟩
    · exact ⟨hC.serves.weaken _ hj', fun _ => ⟨hf', hj'.2⟩⟩

theorem Conversation.greeted {s : Server} (h : WellFormed s) {w w' : World} {peer : Int}
    (hi : Idle s.world w) (hi' : Idle (w.openedSock peer) w') (address : SockAddr) :
    SameTexts s.world (greeted w' peer address).world ∧ K (greeted w' peer address).story ∧
      Framed (greeted w' peer address).client (greeted w' peer address).story ∧
      J (greeted w' peer address).client (greeted w' peer address).story := by
  obtain ⟨-, -, hstory⟩ := greeted_hist h hi hi' address
  have htexts : SameTexts w (w.openedSock peer) := rfl
  have hgreet : SameTexts w' (Ftpii.greeted w' peer address).world :=
    writeReply_keeps sameTexts_use.replies 220 "ftpii".toList ⟨newClient w' peer address, w'⟩
  refine ⟨sameTexts_frame.trans hi.sameTexts <| sameTexts_frame.trans htexts <|
    sameTexts_frame.trans hi'.sameTexts hgreet, ?_, ?_, ?_⟩
  · rw [hstory]
    exact hC.greeting _
  · rw [hstory]
    exact newClient_framed w' peer address (by simp [Event.IsAnswer])
  · rw [hstory]
    exact hC.arrive w' peer address _

theorem Conversation.survives : Survives (Recorded texts J K) where
  idle server down halted _ hs hi := hs.grow rfl hi.grows hi.sameTexts
  away {s w w' peer} _ hs _ _ hi hi' := by
    have hopen : Grows w (w.openedSock peer) := ⟨Nat.le_succ _, rfl⟩
    have htexts : SameTexts w (w.openedSock peer) := rfl
    exact hs.grow rfl
      (grows_frame.trans hi.grows <| grows_frame.trans hopen <| grows_frame.trans hi'.grows <|
        netClose_keeps grows_sockets peer w')
      (sameTexts_frame.trans hi.sameTexts <| sameTexts_frame.trans htexts <|
        sameTexts_frame.trans hi'.sameTexts <| netClose_keeps sameTexts_sockets peer w')
  ungreeted {s w w' peer} address h hs _ _ hi hi' := by
    obtain ⟨hconn, hist, -⟩ := greeted_hist h hi hi' address
    obtain ⟨htexts, hk, -⟩ := hC.greeted h hi hi' address
    have hclose : Grows (Ftpii.greeted w' peer address).world (Ftpii.ungreeted w' peer address) :=
      netCloseBlocking_keeps grows_sockets peer _
    refine hs.adds (k := s.world.nextSock) (sameTexts_frame.trans htexts
      (netCloseBlocking_keeps sameTexts_sockets peer _)) (fun j hj => ?_) ?_ fun q d hd => ?_
    · exact (congrFun hclose.hist j).trans (hist j hj)
    · change K ((Ftpii.ungreeted w' peer address).hist _)
      rw [hclose.hist, ← hconn]
      exact hk
    · exact .inl ⟨hd, (h.conn_lt q d hd).ne⟩
  enter {s w w' peer i} address h hs _ _ hi hi' _ := by
    obtain ⟨hconn, hist, -⟩ := greeted_hist h hi hi' address
    obtain ⟨htexts, hk, hnew⟩ := hC.greeted h hi hi' address
    refine hs.adds (k := s.world.nextSock) htexts hist (hconn ▸ hk) fun q d hd => ?_
    by_cases hq : q = s.nextClient
    · obtain rfl : (Ftpii.greeted w' peer address).client = d := by
        simpa [Server.entering, hq] using hd
      exact .inr hnew
    · have hd' : s.heap q = some d := by simpa [Server.entering, hq] using hd
      exact .inl ⟨hd', (h.conn_lt q d hd').ne⟩
  stay {s p c} h hs hp hr := by
    have ht := turn_apart c ⟨c, s.world⟩
    have hc := hs.clients p c hp
    obtain ⟨hk, hstay⟩ := hC.turn hs.texts hc.1 hc.2
    refine hs.adds (k := c.conn) (turn_sameTexts c ⟨c, s.world⟩) (fun j hj => ht.hist j hj) ?_ ?_
    · exact ht.conn ▸ hk
    · intro q d hd
      by_cases hq : q = p
      · obtain rfl : (Ftpii.turn c ⟨c, s.world⟩).2.client = d := by
          simpa [Server.withSession, hq] using hd
        exact .inr (hstay hr)
      · have hd' : s.heap q = some d := by simpa [Server.withSession, hq] using hd
        exact .inl ⟨hd', fun he => hq (h.conns q p d c hd' hp he)⟩
  leave {s i p c m} h hs hi hp hm := by
    have hc := hs.clients p c hp
    rcases hm with rfl | rfl
    · exact hs.leave h i hp (turn_apart c _) (turn_sameTexts c _) (hC.turn hs.texts hc.1 hc.2).1
    · refine hs.leave h i hp (dismiss_apart _) (writeReply_keeps sameTexts_use.replies _ _ _) ?_
      change K (Ftpii.dismiss ⟨c, s.world⟩).2.story
      rw [Ftpii.dismiss, writeReply_story]
      exact hC.dismiss c _ _ hc.2
  finish {s} _ hs _ :=
    hs.grow rfl (netClose_keeps grows_sockets _ _) (netClose_keeps sameTexts_sockets _ _)

end Conversation

theorem conversation_true (texts : Int → Str) :
    Conversation texts (fun _ _ => True) fun _ => True := by
  constructor <;> intros <;> simp

/-- In every run each client keeps J and all events K. -/
theorem Conversation.reach {J : (Int → Str) → Client → List Event → Prop}
    {K : (Int → Str) → List Event → Prop} (hC : ∀ texts, Conversation texts (J texts) (K texts))
    {guard : Server → Label → Prop} {s : Server} (h : Reachable guard s) :
    Recorded s.world.strerror (J s.world.strerror) (K s.world.strerror) s := by
  have hsurvives := Survives.exists fun texts => (hC texts).survives
  have hstart : ∀ s : Server, s.Initial → ∃ texts, Recorded texts (J texts) (K texts) s := by
    intro s hs
    obtain ⟨disk, mounted, strerror, password, rfl⟩ := hs.eq
    refine ⟨strerror, rfl, fun p c hp => ?_, fun _ => (hC strerror).start⟩
    simp [Server.boot] at hp
  obtain ⟨-, texts, hr⟩ := hsurvives.reach hstart (by
    intro s _ ht _ w server down halted hn
    obtain ⟨texts, hr⟩ := ht
    exact ⟨texts, hr.grow rfl hn.grows hn.sameTexts⟩) h
  obtain rfl := hr.texts
  exact hr

end Ftpii
