import Ftpii.Runs
set_option autoImplicit false

/-! What the server layer does to the world, as closure conditions on a relation. -/

namespace Ftpii
open StateProgram Prog

/-- The worlds are related and the listener is the same one. -/
structure OnServer (P : World → World → Prop) (s s' : Server) : Prop where
  world : P s.world s'.world
  server : s'.server = s.server

/-- What letting clients in and sending them away does to the world. -/
structure ClientUse (P : World → World → Prop) : Prop where
  sockets : UsesSockets P
  malloc : Keeps P malloc
  reply : ∀ code msg, Keeps (OnWorld P) (writeReply code msg)
  close : Keeps (OnWorld P) closeSockets

/-- What calls outside sessions, replies and the closing of a client's sockets do to the world. -/
structure ServerUse (P : World → World → Prop) : Prop where
  sockets : UsesSockets P
  idle : ∀ {w w' : World}, Idle w w' → P w w'
  reply : ∀ code msg, Keeps (OnWorld P) (writeReply code msg)
  close : Keeps (OnWorld P) closeSockets

theorem WorldUse.clients {P : World → World → Prop} (hP : WorldUse P) : ClientUse P where
  sockets := hP.sockets
  malloc := malloc_keeps hP.streams.toLookups
  reply := writeReply_keeps hP.replies
  close := closeSockets_keeps hP.data.releases fun s _ => hP.sockets.refl s.world

theorem WorldUse.serverUse {P : World → World → Prop} (hP : WorldUse P)
    (idle : ∀ {w w' : World}, Idle w w' → P w w') : ServerUse P where
  sockets := hP.sockets
  idle := idle
  reply := hP.clients.reply
  close := hP.clients.close

theorem ServerUse.clients {P : World → World → Prop} (hP : ServerUse P) : ClientUse P where
  sockets := hP.sockets
  malloc w := hP.idle (malloc_keeps idle_lookups w)
  reply := hP.reply
  close := hP.close

section ClientUse

variable {P : World → World → Prop} (hP : ClientUse P)

include hP

theorem ClientUse.frame : Frame (OnServer P) where
  refl s := ⟨hP.sockets.refl s.world, rfl⟩
  trans h h' := ⟨hP.sockets.trans h.world h'.world, h'.server.trans h.server⟩

omit hP in
theorem sys_keeps {α : Type} {m : Os α} (hm : Keeps P m) : Keeps (OnServer P) (sys m) :=
  fun s => ⟨hm s.world, rfl⟩

theorem ClientUse.withClient {α : Type} [Inhabited α] (p : Nat) {m : Ses α}
    (hm : Keeps (OnWorld P) m) : Keeps (OnServer P) (withClient p m) := by
  intro s
  unfold Ftpii.withClient
  cases s.heap p with
  | none => exact ⟨hP.sockets.refl s.world, rfl⟩
  | some c =>
    have hsession : P s.world (m ⟨c, s.world⟩).2.world := hm ⟨c, s.world⟩
    exact ⟨hsession, rfl⟩

theorem ClientUse.replaceSlot (old new : Option Nat) : Keeps (OnServer P) (replaceSlot old new) := by
  intro s
  simp only [Ftpii.replaceSlot, modify_run]
  split
  · exact hP.frame.refl s
  · exact ⟨hP.sockets.refl s.world, rfl⟩

theorem ClientUse.table (f : Server → Server) (hw : ∀ s, (f s).world = s.world)
    (hs : ∀ s, (f s).server = s.server) : Keeps (OnServer P) (Prog.modify f) := by
  intro s
  refine ⟨?_, hs s⟩
  rw [modify_run, hw]
  exact hP.sockets.refl s.world

theorem ClientUse.free (p : Nat) : Keeps (OnServer P) (free p) :=
  hP.table _ (fun _ => rfl) fun _ => rfl

theorem ClientUse.cleanupClient (p : Nat) : Keeps (OnServer P) (cleanupClient p) :=
  .bind hP.frame (hP.withClient p hP.close) fun _ => .bind hP.frame (hP.replaceSlot _ _) fun _ =>
    .bind hP.frame (hP.free p) fun _ => hP.table _ (fun _ => rfl) fun _ => rfl

theorem ClientUse.admitClient (peer : Int) (address : SockAddr) :
    Keeps (OnServer P) (admitClient peer address) := by
  have hF := hP.frame
  have halloc : Keeps (OnServer P) (allocClient peer address) := fun s =>
    ⟨hP.sockets.refl s.world, rfl⟩
  refine .bind hF halloc fun p => .bind hF (hP.withClient p (hP.reply _ _)) fun _ => .ite ?_ ?_
  · exact .bind hF (sys_keeps (netCloseBlocking_keeps hP.sockets peer)) fun _ => hP.free p
  · exact .bind hF (hP.replaceSlot _ _) fun _ => hP.table _ (fun _ => rfl) fun _ => rfl

theorem ClientUse.acceptStep (server : Int) : Keeps (OnServer P) (acceptStep server) := by
  have hF := hP.frame
  have haway : ∀ peer, Keeps (OnServer P) (do
      sys (netClose peer)
      pure (.inr true) : Sys (Unit ⊕ Bool)) := fun peer =>
    .bind hF (sys_keeps (netClose_keeps hP.sockets peer)) fun _ => .pure hF _
  refine .bind hF (sys_keeps (netAccept_keeps hP.sockets server)) fun r => ?_
  refine .ite (.pure hF _) <| .ite (.pure hF _) <| .bind hF (.gets hF _) fun _ => .ite (haway _) ?_
  refine .bind hF (sys_keeps hP.malloc) fun _ => .ite (haway _) ?_
  exact .bind hF (hP.admitClient _ _) fun _ => .pure hF _

theorem ClientUse.acceptEvents : Keeps (OnServer P) acceptEvents := by
  have hF := hP.frame
  refine .bind hF (.get hF) fun s => .bind hF ?_ fun _ => hP.table _ (fun _ => rfl) fun _ => rfl
  exact .bind hF (sys_keeps (netFuel_keeps hP.sockets.toFrame)) fun _ =>
    .iterate hF (fun _ => hP.acceptStep _) _ _

theorem ClientUse.cleanupFtp : Keeps (OnServer P) cleanupFtp := by
  have hF := hP.frame
  refine .forEach hF (fun i => .bind hF (.get hF) fun s => ?_) _
  cases s.clients i with
  | none => exact .pure hF _
  | some p => exact .bind hF (hP.withClient p (hP.reply _ _)) fun _ => hP.cleanupClient p

theorem ClientUse.processSlot (data : Keeps (OnWorld P) dataEvents)
    (control : Keeps (OnWorld P) controlEvents) (i : Fin MAX_CLIENTS) :
    Keeps (OnServer P) (processSlot i) := by
  have hF := hP.frame
  have hend : ∀ (p : Nat) (m : Ses Bool), Keeps (OnWorld P) m → Keeps (OnServer P) (do
      let close ← Ftpii.withClient p m
      if close then Ftpii.cleanupClient p else pure ()) := fun p m hm =>
    .bind hF (hP.withClient p hm) fun _ => .ite (hP.cleanupClient p) (.pure hF _)
  refine .bind hF (.get hF) fun s => ?_
  cases s.clients i with
  | none => exact .pure hF _
  | some p =>
    refine .bind hF (hP.withClient p (.gets (OnWorld.frame hP.sockets.toFrame) _)) fun _ => ?_
    exact .ite (hend p dataEvents data) (hend p controlEvents control)

end ClientUse

section ServerUse

variable {P : World → World → Prop} (hP : ServerUse P)

include hP

theorem ServerUse.calls {α : Type} {m : Os α} (hm : Keeps Idle m) : Keeps (OnServer P) (sys m) :=
  sys_keeps fun w => hP.idle (hm w)

theorem ServerUse.shutdown : Keeps (OnServer P) shutdown := by
  intro s
  obtain ⟨w, hidle, he⟩ := shutdown_run s
  have hclean := hP.clients.cleanupFtp s
  have hclose := netClose_keeps hP.sockets (Ftpii.cleanupFtp s).2.server (Ftpii.cleanupFtp s).2.world
  rw [he]
  exact ⟨hP.sockets.trans hclean.world (hP.sockets.trans hclose (hP.idle hidle)), hclean.server⟩

/-- Every step but the turns and bringing the network up again. -/
theorem ServerUse.step {l : Label} (hslot : ∀ i, l ≠ .slot i) (hreinit : l ≠ .reinit)
    (s : Server) : OnServer P s (s.step l) := by
  unfold Server.step
  split
  · exact hP.clients.frame.refl s
  cases l with
  | env answers => exact hP.calls (fun w => idle_answers w answers) s
  | reinit => exact absurd rfl hreinit
  | dvdMount => exact hP.calls (checkDvdMount_keeps idle_devices.drives fun _ => trivial) s
  | accept => exact hP.clients.acceptEvents s
  | slot i => exact absurd rfl (hslot i)
  | wiimote => exact hP.calls (idle_devices.console.wiimoteEvents idle_reset) s
  | gamecube => exact hP.calls (idle_devices.console.gamecubeEvents idle_reset) s
  | timers => exact hP.calls (idle_devices.console.timerEvents) s
  | shutdown => exact hP.shutdown s

end ServerUse

end Ftpii
