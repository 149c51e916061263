import Ftpii.DataSetup
set_option autoImplicit false

/-! What send_exact delivers, and what the callbacks of a download make of its result. -/

namespace Ftpii
open StateProgram Prog

/-! ## One exact send -/

/-- The mode of a descriptor was asked for or set, whatever came of it. -/
def Toggles (fd : Int) (w w' : World) : Prop :=
  ∃ cs, let v : World := { w with answers := { w.answers with fcntls := cs } }
    w' = v ∨ ∃ k f, w.socks fd = some k ∧ w' = v.setSock fd (some { k with flags := f })

theorem setBlocking_toggles (fd : Int) (blocking : Bool) (w : World) :
    Toggles fd w (setBlocking fd blocking w).2 := by
  have hpop : ∀ v : World, ∃ cs,
      (popFcntl v).2 = { v with answers := { v.answers with fcntls := cs } } := by
    intro v
    unfold popFcntl
    split
    · exact ⟨v.answers.fcntls, rfl⟩
    · exact ⟨_, rfl⟩
  simp only [setBlocking, bind_run, ite_run, pure_run]
  cases hk : w.socks fd with
  | none =>
    have hget : netFcntlGet fd w = ((-EBADF, 0), w) := by simp [netFcntlGet, hk]
    rw [hget]
    exact ⟨w.answers.fcntls, .inl rfl⟩
  | some k =>
    obtain ⟨cs, hcs⟩ := hpop w
    have hget : (netFcntlGet fd w).2 = { w with answers := { w.answers with fcntls := cs } } := by
      simp [netFcntlGet, hk, hcs]
    split
    · exact ⟨cs, .inl hget⟩
    · obtain ⟨ds, hds⟩ := hpop { w with answers := { w.answers with fcntls := cs } }
      rw [hget]
      simp only [netFcntlSet, hk]
      split
      · exact ⟨ds, .inl hds⟩
      · rw [hds]
        exact ⟨ds, .inr ⟨k, _, hk, rfl⟩⟩

/-- Data went out on the socket object k behind fd, and on no other. -/
structure Sent (fd : Int) (k : Sock) (data : Str) (w w' : World) : Prop where
  sent : w'.sent = Function.update w.sent k.id (w.sent k.id ++ data)
  object : ∃ k', w'.socks fd = some k' ∧ k'.id = k.id

theorem Sent.none {fd : Int} {k : Sock} {w : World} (hk : w.socks fd = some k) :
    Sent fd k [] w w := ⟨by simp, k, hk, rfl⟩

theorem Sent.append {fd : Int} {k k' : Sock} {a b : Str} {u v w : World} (h : Sent fd k a u v)
    (hk : k'.id = k.id) (h' : Sent fd k' b v w) : Sent fd k (a ++ b) u w := by
  refine ⟨?_, ?_⟩
  · rw [h'.sent, h.sent, hk]
    simp
  · rw [← hk]
    exact h'.object

theorem Toggles.sent {fd : Int} {k : Sock} {w w' : World} (h : Toggles fd w w')
    (hk : w.socks fd = some k) : Sent fd k [] w w' := by
  obtain ⟨cs, rfl | ⟨k', f, hk', rfl⟩⟩ := h
  · exact ⟨by simp, k, hk, rfl⟩
  · obtain rfl : k = k' := by simpa [hk] using hk'
    exact ⟨by simp [World.setSock], { k with flags := f }, by simp [World.setSock], rfl⟩

theorem Toggles.writes {fd : Int} {w w' : World} (h : Toggles fd w w') :
    w'.answers.writes = w.answers.writes := by
  obtain ⟨cs, rfl | ⟨k, f, -, rfl⟩⟩ := h <;> rfl

theorem netWrite_run {fd : Int} {k : Sock} {w : World} (hk : w.socks fd = some k) (buf : Str) :
    netWrite fd buf w =
      let r := min (popWrite buf.length w).1 buf.length
      let w' := (popWrite buf.length w).2
      let sent := Function.update w'.sent k.id (w'.sent k.id ++ buf.take r.toNat)
      (r, ({ w' with sent := sent }).record (.write fd buf.length r)) := by
  simp only [netWrite, hk]

theorem popWrite_sent (len : Nat) (w : World) : (popWrite len w).2.sent = w.sent := by
  unfold popWrite
  split <;> rfl

theorem popWrite_size (len : Nat) (w : World) :
    (popWrite len w).2.netBufferSize = w.netBufferSize := by
  unfold popWrite
  split <;> rfl

theorem popWrite_mem {len : Nat} {w : World} (h : (popWrite len w).1 < 0) :
    (popWrite len w).1 ∈ w.answers.writes := by
  unfold popWrite at h ⊢
  split at h
  · exact absurd h (by simp)
  · rename_i a as ha
    simp [ha]

theorem netWrite_sent {fd : Int} {k : Sock} {w : World} (hk : w.socks fd = some k) (buf : Str) :
    Sent fd k (buf.take (netWrite fd buf w).1.toNat) w (netWrite fd buf w).2 ∧
      (netWrite fd buf w).1 ≤ buf.length ∧
      (netWrite fd buf w).2.netBufferSize = w.netBufferSize ∧
      ((netWrite fd buf w).1 < 0 → (netWrite fd buf w).1 ∈ w.answers.writes) := by
  have hsent := popWrite_sent buf.length w
  rw [netWrite_run hk]
  refine ⟨⟨by simp [World.record, hsent], k, by simp [World.record, hk], rfl⟩, min_le_right _ _,
    popWrite_size _ _, fun h => ?_⟩
  have hneg : (popWrite buf.length w).1 < 0 := by
    simp only at h
    omega
  have hmin : min (popWrite buf.length w).1 (buf.length : Int) = (popWrite buf.length w).1 := by
    omega
  simp only [hmin]
  exact popWrite_mem hneg

def roundsLeft (buf : Str) (w : World) : Nat :=
  buf.length + if w.netBufferSize = MAX_NET_BUFFER_SIZE then 1 else 0

/-- What a send may have come to: everything went out, or a prefix and an error. -/
def SendOutcome (fd : Int) (k : Sock) (buf : Str) (w : World) (r : Int) (w' : World) : Prop :=
  ∃ n, Sent fd k (buf.take n) w w' ∧
    (r = 0 ∧ n = buf.length ∨ r < 0 ∧ n < buf.length ∧ (r = -EAGAIN → -EAGAIN ∈ w.answers.writes))

theorem transferStep_sent {fd : Int} {k : Sock} {w : World} (hk : w.socks fd = some k) (buf : Str) :
    let r := transferStep fd netWrite buf w
    (∀ rest, r.1 = .inl rest → ∃ n, rest = buf.drop n ∧ Sent fd k (buf.take n) w r.2 ∧
      roundsLeft rest r.2 < roundsLeft buf w) ∧
    ∀ e, r.1 = .inr e → Sent fd k [] w r.2 ∧
      (e = 0 ∧ buf = [] ∨ e < 0 ∧ buf ≠ [] ∧ (e = -EAGAIN → -EAGAIN ∈ w.answers.writes)) := by
  by_cases hb : buf = []
  · subst hb
    have hrun : transferStep fd netWrite [] w = (.inr 0, w) := by simp [transferStep]
    rw [hrun]
    exact ⟨fun _ h => by simp at h, fun e h => ⟨.none hk, .inl ⟨by simpa using h.symm, rfl⟩⟩⟩
  let chunk := buf.take (min buf.length w.netBufferSize)
  obtain ⟨hsent, hle, hsize, hmem⟩ := netWrite_sent hk chunk
  have hchunk : chunk.length ≤ buf.length := by simp [chunk]
  have hpos : 0 < buf.length := List.length_pos_of_ne_nil hb
  have hrun : transferStep fd netWrite buf w =
      let r := netWrite fd chunk w
      if 0 < r.1 then (.inl (buf.drop r.1.toNat), r.2)
      else if r.1 < 0 then
        if r.1 = -EINVAL ∧ w.netBufferSize = MAX_NET_BUFFER_SIZE then
          (.inl buf, (shrinkBuffer r.2).2)
        else (.inr r.1, r.2)
      else (.inr (-ENODATA), r.2) := by
    simp +instances only [transferStep, if_neg hb, bind_run, gets_run, ite_run, pure_run, chunk]
  rw [hrun]
  simp only
  split
  · rename_i hr
    refine ⟨fun rest h => ?_, fun _ h => by simp at h⟩
    obtain rfl : buf.drop (netWrite fd chunk w).1.toNat = rest := by simpa using h
    refine ⟨_, rfl, ?_, ?_⟩
    · have hn : (netWrite fd chunk w).1.toNat ≤ chunk.length := by omega
      have htake : chunk.take (netWrite fd chunk w).1.toNat =
          buf.take (netWrite fd chunk w).1.toNat := by
        simp only [chunk, List.length_take] at hn ⊢
        rw [List.take_take, min_eq_left (by omega)]
      exact htake ▸ hsent
    · simp only [roundsLeft, hsize, List.length_drop]
      omega
  · rename_i hr
    have hzero : (netWrite fd chunk w).1.toNat = 0 := by omega
    rw [hzero, List.take_zero] at hsent
    split
    · rename_i hneg
      split
      · rename_i hshrink
        refine ⟨fun rest h => ?_, fun _ h => by simp at h⟩
        obtain rfl : buf = rest := by simpa using h
        refine ⟨0, rfl, ⟨hsent.sent, hsent.object⟩, ?_⟩
        have hmin : MIN_NET_BUFFER_SIZE ≠ MAX_NET_BUFFER_SIZE := by decide
        simp [roundsLeft, shrinkBuffer, hshrink.2, hmin]
      · refine ⟨fun _ h => by simp at h, fun e h => ?_⟩
        obtain rfl : (netWrite fd chunk w).1 = e := by simpa using h
        refine ⟨hsent, .inr ⟨hneg, hb, fun he => ?_⟩⟩
        exact he ▸ hmem hneg
    · refine ⟨fun _ h => by simp at h, fun e h => ?_⟩
      obtain rfl : -ENODATA = e := by simpa using h
      exact ⟨hsent, .inr ⟨by decide, hb, fun he => absurd he (by decide)⟩⟩

theorem Draws.mem_writes {w w' : World} (h : Draws w w') {a : Int} (ha : a ∈ w'.answers.writes) :
    a ∈ w.answers.writes := (Answers.Drawn.writes h).subset ha

/-- send_exact delivers the whole buffer and returns 0, or a proper prefix and an error. -/
theorem sendExact_sent {fd : Int} {k : Sock} {w : World} (hk : w.socks fd = some k) (buf : Str) :
    SendOutcome fd k buf w (sendExact fd buf w).1 (sendExact fd buf w).2 := by
  let u := (setBlocking fd true w).2
  have hu : Sent fd k [] w u := (setBlocking_toggles fd true w).sent hk
  have huw : u.answers.writes = w.answers.writes := (setBlocking_toggles fd true w).writes
  let v := Prog.iterate (buf.length + 2) (transferStep fd netWrite) (fun _ => 0) buf u
  have hloop : SendOutcome fd k buf w v.1 v.2 := by
    refine iterate_rule_of_lt roundsLeft
      (fun rest x => Draws u x ∧ ∃ n, n ≤ buf.length ∧ rest = buf.drop n ∧ Sent fd k (buf.take n) w x)
      (fun r x => SendOutcome fd k buf w r x) ?_ ?_ (buf.length + 2) ?_
      ⟨draws_frame.refl u, 0, Nat.zero_le _, rfl, hu⟩
    · rintro rest x rest' ⟨hd, n, hn, rfl, hs⟩ hstep
      obtain ⟨kx, hkx, hid⟩ := hs.object
      obtain ⟨m, hm, hsent, hlt⟩ := (transferStep_sent hkx (buf.drop n)).1 rest' hstep
      have hdraw : Draws x (transferStep fd netWrite (buf.drop n) x).2 :=
        transferStep_keeps draws_sockets.toSends
          (netWrite_keeps draws_sockets.toSends trivial) (buf.drop n) x
      refine ⟨⟨draws_frame.trans hd hdraw, min (n + m) buf.length, min_le_right _ _, ?_, ?_⟩, hlt⟩
      · rw [hm, List.drop_drop]
        rcases le_total (n + m) buf.length with h | h
        · rw [min_eq_left h]
        · rw [min_eq_right h, List.drop_of_length_le h, List.drop_length]
      · have htake : buf.take (min (n + m) buf.length) = buf.take n ++ (buf.drop n).take m := by
          rw [← List.take_take, List.take_length, ← List.take_add]
        rw [htake]
        exact hs.append hid hsent
    · rintro rest x e ⟨hd, n, hn, rfl, hs⟩ hstep
      obtain ⟨kx, hkx, hid⟩ := hs.object
      obtain ⟨hsent, hend⟩ := (transferStep_sent hkx (buf.drop n)).2 e hstep
      have hall := hs.append hid hsent
      rw [List.append_nil] at hall
      refine ⟨n, hall, ?_⟩
      rcases hend with ⟨rfl, hnil⟩ | ⟨hneg, hne, hagain⟩
      · rw [List.drop_eq_nil_iff] at hnil
        exact .inl ⟨rfl, by omega⟩
      · rw [ne_eq, List.drop_eq_nil_iff] at hne
        refine .inr ⟨hneg, by omega, fun he => ?_⟩
        rw [← huw]
        exact hd.mem_writes (hagain he)
    · simp only [roundsLeft]
      split <;> omega
  have hrun : sendExact fd buf w = (v.1, (setBlocking fd false v.2).2) := by
    simp only [sendExact, transferExact, bind_run, pure_run]
    rfl
  obtain ⟨n, hsent, hend⟩ := hloop
  obtain ⟨kv, hkv, hid⟩ := hsent.object
  have hback := hsent.append hid ((setBlocking_toggles fd false v.2).sent hkv)
  rw [List.append_nil] at hback
  rw [hrun]
  exact ⟨n, hback, hend⟩

theorem sendExact_closed {fd : Int} {w : World} (hk : w.socks fd = none) (buf : Str) :
    sendExact fd buf w = (if buf = [] then 0 else -EBADF, w) := by
  have hmode : ∀ b, setBlocking fd b w = (-EBADF, w) := by
    intro b
    simp [setBlocking, netFcntlGet, hk, EBADF]
  have hwrite : ∀ chunk, netWrite fd chunk w = (-EBADF, w) := by
    intro chunk
    simp [netWrite, hk]
  by_cases hb : buf = []
  · simp [sendExact, transferExact, hmode, Prog.iterate, transferStep, hb]
  · simp [sendExact, transferExact, hmode, Prog.iterate, transferStep, hb, hwrite, EBADF, EINVAL]

end Ftpii
