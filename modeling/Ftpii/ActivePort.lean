import Ftpii.FreshSession
import Ftpii.PassivePorts
import Ftpii.PathBounds
set_option autoImplicit false

/-! PORT: which argument texts it accepts, and what it leaves of a session that it refuses. -/

namespace Ftpii
open StateProgram Prog Scanf

/-! ## What PORT parses -/

theorem scanU3List_length {k : Nat} {s : Str} {ns : List Nat} (h : scanU3List k s = some ns) :
    ns.length = k + 1 := by
  induction k generalizing s ns with
  | zero =>
    obtain ⟨r, -, rfl⟩ := Option.map_eq_some_iff.mp h
    rfl
  | succ k ih =>
    simp only [scanU3List] at h
    split at h
    · obtain ⟨ms, hms, rfl⟩ := Option.map_eq_some_iff.mp h
      simp [ih hms]
    · contradiction

/-- The text scans as six numbers. -/
structure Scans (portspec : Str) (h1 h2 h3 h4 p1 p2 : Nat) : Prop where
  scan : scanU3List 5 portspec = some [h1, h2, h3, h4, p1, p2]

theorem Scans.unique {portspec : Str} {h1 h2 h3 h4 p1 p2 k1 k2 k3 k4 q1 q2 : Nat}
    (h : Scans portspec h1 h2 h3 h4 p1 p2) (h' : Scans portspec k1 k2 k3 k4 q1 q2) :
    h1 = k1 ∧ h2 = k2 ∧ h3 = k3 ∧ h4 = k4 ∧ p1 = q1 ∧ p2 = q2 := by
  have he := h.scan.symm.trans h'.scan
  simpa using he

theorem scans_or (portspec : Str) :
    (∃ h1 h2 h3 h4 p1 p2, Scans portspec h1 h2 h3 h4 p1 p2) ∨ scanU3List 5 portspec = none := by
  cases hs : scanU3List 5 portspec with
  | none => exact .inr rfl
  | some ns =>
    have hl := scanU3List_length hs
    match ns, hl with
    | [h1, h2, h3, h4, p1, p2], _ => exact .inl ⟨h1, h2, h3, h4, p1, p2, ⟨hs⟩⟩

def IsAddress (h1 h2 h3 h4 : Nat) : Prop := h1 ≤ 255 ∧ h2 ≤ 255 ∧ h3 ≤ 255 ∧ h4 ≤ 255

theorem inetAton_some {h1 h2 h3 h4 : Nat} (h : IsAddress h1 h2 h3 h4) :
    inetAton h1 h2 h3 h4 = some (h1 * 2 ^ 24 + h2 * 2 ^ 16 + h3 * 2 ^ 8 + h4) := if_pos h

theorem inetAton_none {h1 h2 h3 h4 : Nat} (h : ¬ IsAddress h1 h2 h3 h4) :
    inetAton h1 h2 h3 h4 = none := if_neg h

theorem ftpPort_accepting {portspec : Str} {h1 h2 h3 h4 p1 p2 : Nat}
    (h : Scans portspec h1 h2 h3 h4 p1 p2) (ha : IsAddress h1 h2 h3 h4) (s : Session) :
    ftpPort portspec s =
      let t := (closePassiveSocket s).2
      writeReply 200 "PORT command successful.".toList
        { t with client := { t.client with address :=
          { ip := h1 * 2 ^ 24 + h2 * 2 ^ 16 + h3 * 2 ^ 8 + h4
            port := p1 % 256 * 256 + p2 % 256 } } } := by
  unfold ftpPort
  simp only [h.scan, inetAton_some ha]
  rfl

theorem ftpPort_refusing {portspec : Str}
    (h : ∀ h1 h2 h3 h4 p1 p2, Scans portspec h1 h2 h3 h4 p1 p2 → ¬ IsAddress h1 h2 h3 h4)
    (s : Session) : ftpPort portspec s = syntaxError s := by
  unfold ftpPort
  rcases scans_or portspec with ⟨h1, h2, h3, h4, p1, p2, hs⟩ | hs
  · simp only [hs.scan, inetAton_none (h _ _ _ _ _ _ hs)]
  · simp only [hs]

/-! ## What the answer does to the sockets -/

/-- Only descriptors in S change, and none is opened. -/
def Undisturbed (S : Int → Prop) (w w' : World) : Prop :=
  ∀ fd, ¬ S fd ∨ w.socks fd = none → w'.socks fd = w.socks fd

theorem undisturbed_sends (S : Int → Prop) : Sends S (Undisturbed S) where
  refl _ _ _ := rfl
  trans h h' fd hfd := by
    have he := h fd hfd
    exact (h' fd (hfd.imp_right he.trans)).trans he
  answers _ _ _ _ _ := rfl
  shrink _ _ _ := rfl
  flags w s k f hs hk fd hfd := by
    have hne : fd ≠ s := by
      rintro rfl
      rcases hfd with hn | hn
      · exact hn hs
      · simp [hk] at hn
    simp [World.setSock, hne]
  write _ _ _ _ _ _ _ _ _ _ := rfl

theorem writeReply_undisturbed (code : Nat) (msg : Str) (s : Session) :
    Undisturbed (· = s.client.socket) s.world (writeReply code msg s).2.world :=
  sendExact_keeps (undisturbed_sends (· = s.client.socket)) rfl (replyText code msg) s.world

theorem writeReply_closed {fd : Int} (code : Nat) (msg : Str) {s : Session}
    (h : s.world.socks fd = none) : (writeReply code msg s).2.world.socks fd = none :=
  (writeReply_undisturbed code msg s fd (.inr h)).trans h

theorem closePassiveSocket_closed (s : Session) :
    (closePassiveSocket s).2.client.passiveSocket < 0 ∧
      (0 ≤ s.client.passiveSocket →
        (closePassiveSocket s).2.world.socks s.client.passiveSocket = none) := by
  rw [closePassiveSocket_client]
  by_cases hs : 0 ≤ s.client.passiveSocket
  · refine ⟨by simp [hs], fun _ => ?_⟩
    simp +instances only [closePassiveSocket, bind_run, client_run, ite_run, if_pos hs, update_run,
      os_run]
    exact Function.update_self _ _ _
  · exact ⟨by simp only [if_neg hs]; omega, fun h => absurd h hs⟩

/-! ## PORT is exact and atomic -/

/-- PORT took the six numbers as octets: the address is the one they tell. -/
def PortTaken (portspec : Str) (s t : Session) : Prop :=
  ∃ h1 h2 h3 h4 p1 p2, Scans portspec h1 h2 h3 h4 p1 p2 ∧ IsAddress h1 h2 h3 h4 ∧
    p1 ≤ 255 ∧ p2 ≤ 255 ∧
    t.Replied 200 "PORT command successful.".toList ∧
    t.client.address =
      { ip := h1 * 2 ^ 24 + h2 * 2 ^ 16 + h3 * 2 ^ 8 + h4, port := 256 * p1 + p2 } ∧
    t.client.passiveSocket < 0 ∧
    (0 ≤ s.client.passiveSocket → t.world.socks s.client.passiveSocket = none)

/-- PORT refused and changed nothing. -/
def PortRefused (s t : Session) : Prop :=
  t.Replied 501 "Syntax error in parameters.".toList ∧ t.client = s.client ∧
    Undisturbed (· = s.client.socket) s.world t.world

theorem ftpPort_refused {portspec : Str}
    (h : ∀ h1 h2 h3 h4 p1 p2, Scans portspec h1 h2 h3 h4 p1 p2 → ¬ IsAddress h1 h2 h3 h4)
    (s : Session) : PortRefused s (ftpPort portspec s).2 := by
  rw [ftpPort_refusing h]
  exact ⟨writeReply_replied 501 _ s, rfl, writeReply_undisturbed 501 _ s⟩

/-- An accepted address is the one told, the port is made of the low octets of the last two
numbers, and the passive socket is closed. -/
theorem ftpPort_taken {portspec : Str} {h1 h2 h3 h4 p1 p2 : Nat}
    (h : Scans portspec h1 h2 h3 h4 p1 p2) (ha : IsAddress h1 h2 h3 h4) (s : Session) :
    let t := (ftpPort portspec s).2
    t.Replied 200 "PORT command successful.".toList ∧
      t.client.address =
        { ip := h1 * 2 ^ 24 + h2 * 2 ^ 16 + h3 * 2 ^ 8 + h4
          port := p1 % 256 * 256 + p2 % 256 } ∧
      t.client.passiveSocket < 0 ∧
      (0 ≤ s.client.passiveSocket → t.world.socks s.client.passiveSocket = none) := by
  have hclose := closePassiveSocket_closed s
  rw [ftpPort_accepting h ha]
  refine ⟨writeReply_replied 200 _ _, rfl, hclose.1, fun hs => ?_⟩
  exact writeReply_closed 200 _ (hclose.2 hs)

/-- PORT is exact and atomic unless the address is one and a port number is above 255: the port
half of the argument is masked where the address half is checked. -/
theorem port_exact_iff (portspec : Str) (s : Session) :
    PortTaken portspec s (ftpPort portspec s).2 ∨ PortRefused s (ftpPort portspec s).2 ↔
      ∀ h1 h2 h3 h4 p1 p2, Scans portspec h1 h2 h3 h4 p1 p2 → IsAddress h1 h2 h3 h4 →
        p1 ≤ 255 ∧ p2 ≤ 255 := by
  by_cases hno : ∀ h1 h2 h3 h4 p1 p2, Scans portspec h1 h2 h3 h4 p1 p2 → ¬ IsAddress h1 h2 h3 h4
  · constructor
    · intro _ h1 h2 h3 h4 p1 p2 hs ha
      exact absurd ha (hno _ _ _ _ _ _ hs)
    · intro _
      exact .inr (ftpPort_refused hno s)
  · simp only [not_forall, not_not] at hno
    obtain ⟨h1, h2, h3, h4, p1, p2, hs, ha⟩ := hno
    obtain ⟨hreply, haddr, hpassive, hclosed⟩ := ftpPort_taken hs ha s
    constructor
    · rintro (⟨k1, k2, k3, k4, q1, q2, hs', -, hq1, hq2, -⟩ | ⟨h501, -⟩)
      · obtain ⟨-, -, -, -, rfl, rfl⟩ := hs.unique hs'
        intro k1 k2 k3 k4 q1 q2 hs'' _
        obtain ⟨-, -, -, -, rfl, rfl⟩ := hs.unique hs''
        exact ⟨hq1, hq2⟩
      · exact absurd (hreply.unique h501).1 (by decide)
    · intro hp
      obtain ⟨hp1, hp2⟩ := hp _ _ _ _ _ _ hs ha
      have hport : p1 % 256 * 256 + p2 % 256 = 256 * p1 + p2 := by omega
      rw [hport] at haddr
      exact .inl ⟨h1, h2, h3, h4, p1, p2, hs, ha, hp1, hp2, hreply, haddr, hpassive, hclosed⟩

/-- A port of 999 is accepted, and taken for 231. -/
theorem port_masks :
    let s : Session := ⟨newClient connectedWorld 3 {}, connectedWorld⟩
    let t := (ftpPort "1,2,3,4,999,5".toList s).2
    t.world.sent 0 = "200 PORT command successful.\r\n".toList ∧
      t.client.address = { ip := 16909060, port := 256 * 231 + 5 } ∧
      ¬ (PortTaken "1,2,3,4,999,5".toList s t ∨ PortRefused s t) := by
  have hs : Scans "1,2,3,4,999,5".toList 1 2 3 4 999 5 := ⟨by decide⟩
  have ha : IsAddress 1 2 3 4 := by unfold IsAddress; omega
  intro s t
  have ht := ftpPort_taken hs ha s
  refine ⟨by decide +kernel, ht.2.1, fun h => ?_⟩
  rcases h with ⟨k1, k2, k3, k4, q1, q2, hs', -, hq1, -⟩ | ⟨h501, -⟩
  · obtain ⟨-, -, -, -, rfl, -⟩ := hs.unique hs'
    omega
  · exact absurd (ht.1.unique h501).1 (by decide)

end Ftpii
