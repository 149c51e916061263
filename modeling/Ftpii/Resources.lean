import Ftpii.Isolation
import Ftpii.OpenFiles
import Ftpii.OpenSockets
set_option autoImplicit false

/-!
How much the server holds. The network stack and the C library have few descriptors to give, so what
is open in any state is counted against the clients there are.
-/

namespace Ftpii
open StateProgram Ownership

section Counting

variable {s : Server}

def Server.live (s : Server) : Finset (Option Nat) := s.slots.image s.clients

theorem card_live_le (h : WellFormed s) : s.live.card ≤ s.numClients.toNat := by
  rw [h.counted]
  exact Finset.card_image_le

theorem mem_live (h : WellFormed s) {p : Nat} {c : Client} (hp : s.heap p = some c) :
    some p ∈ s.live := by
  obtain ⟨i, hi⟩ := h.placed p (by simp [hp])
  exact Finset.mem_image.mpr ⟨i, by simp [hi], hi⟩

theorem numClients_le (h : WellFormed s) : s.numClients.toNat ≤ MAX_CLIENTS := by
  rw [h.counted]
  simpa using Finset.card_le_univ s.slots

theorem numbers_encard_le (c : Client) : c.numbers.encard ≤ 3 := by
  have hsub : c.numbers ⊆ ({c.socket, c.passiveSocket, c.dataSocket} : Finset Int) := by
    intro fd hfd
    simpa using hfd.2
  calc c.numbers.encard
      ≤ (({c.socket, c.passiveSocket, c.dataSocket} : Finset Int) : Set Int).encard :=
        Set.encard_le_encard hsub
    _ = ({c.socket, c.passiveSocket, c.dataSocket} : Finset Int).card := Set.encard_coe_eq_coe_finsetCard _
    _ ≤ 3 := by exact_mod_cast Finset.card_le_three

theorem files_encard_le (c : Client) : c.files.encard ≤ 1 := by
  refine Set.encard_le_one_iff.mpr fun f g hf hg => ?_
  have hfile : c.dataConnectionCallbackArg = some f := hf
  exact Option.some.inj (hfile.symm.trans hg)

theorem listener_encard_le (s : Server) : s.listener.encard ≤ 1 := by
  unfold Server.listener
  split
  · simp
  · refine Set.encard_le_one_iff.mpr fun f g hf hg => ?_
    exact hf.2.trans hg.2.symm

theorem openNumbers_encard_le (h : WellFormed s) {listener : Set Int} (hs : s.Shares listener)
    (hl : listener.encard ≤ 1) : s.world.openNumbers.encard ≤ 1 + s.live.card * 3 := by
  let theirs : Set Int := {fd | ∃ p c, s.heap p = some c ∧ fd ∈ c.numbers}
  have hsub : s.world.openNumbers ⊆ listener ∪ theirs := by
    intro fd hfd
    obtain ⟨o, ho⟩ := (hs.owned.held fd).mp hfd
    cases o with
    | none => exact .inl ho
    | some p =>
      obtain ⟨c, hp, hc⟩ := ho
      exact .inr ⟨p, c, hp, hc⟩
  have hheld : ∀ fd ∈ theirs, ∃ o ∈ s.live, fd ∈ s.holders listener o := by
    intro fd hfd
    obtain ⟨p, c, hp, hc⟩ := hfd
    exact ⟨some p, mem_live h hp, c, hp, hc⟩
  have heach : ∀ o ∈ s.live, (s.holders listener o).encard ≤ 3 := by
    intro o ho
    obtain ⟨i, hi, rfl⟩ := Finset.mem_image.mp ho
    obtain ⟨p, hp⟩ := Option.isSome_iff_exists.mp (mem_slots.mp hi)
    obtain ⟨c, hc⟩ := h.client hp
    have hnumbers : s.holders listener (s.clients i) = c.numbers := by
      rw [hp]
      exact held_of_heap Client.numbers hc
    rw [hnumbers]
    exact numbers_encard_le c
  have htheirs : theirs.encard ≤ s.live.card * 3 := encard_le_of_held hheld heach
  calc s.world.openNumbers.encard
      ≤ (listener ∪ theirs).encard := Set.encard_le_encard hsub
    _ ≤ listener.encard + theirs.encard := Set.encard_union_le _ _
    _ ≤ 1 + s.live.card * 3 := add_le_add hl htheirs

theorem openStreams_encard_le (h : WellFormed s) (hf : Filed s) :
    s.world.openStreams.encard ≤ s.live.card := by
  have hheld : ∀ f ∈ s.world.openStreams, ∃ o ∈ s.live, f ∈ o.elim ∅ (s.held Client.files) := by
    intro f hfo
    obtain ⟨p, c, hp, hc⟩ := (hf.owned.held f).mp hfo
    exact ⟨some p, mem_live h hp, c, hp, hc⟩
  have hbound := encard_le_of_held (n := 1) hheld fun o ho => ?_
  · simpa using hbound
  · obtain ⟨i, hi, rfl⟩ := Finset.mem_image.mp ho
    obtain ⟨p, hp⟩ := Option.isSome_iff_exists.mp (mem_slots.mp hi)
    obtain ⟨c, hc⟩ := h.client hp
    rw [hp, Option.elim_some, held_of_heap Client.files hc]
    exact files_encard_le c

end Counting

/-- In every run in which no client outlives the network, there are at most the listener and three
sockets for each client open, and at most one file for each client unless a transfer was given up. -/
theorem resources_bounded {s : Server} (h : Reachable Server.Renews s) :
    s.numClients.toNat ≤ MAX_CLIENTS ∧ s.world.openNumbers.encard ≤ 1 + s.numClients.toNat * 3 ∧
      (¬ s.world.GivenUp → s.world.openStreams.encard ≤ s.numClients.toNat) := by
  have hw : WellFormed s := Reachable.wellFormed h
  have hcard : (s.live.card : ℕ∞) ≤ s.numClients.toNat := by exact_mod_cast card_live_le hw
  refine ⟨numClients_le hw, ?_, fun hno => ?_⟩
  · have hopen := openNumbers_encard_le hw (Reachable.kept h).shares (listener_encard_le s)
    exact hopen.trans (by gcongr)
  · exact (openStreams_encard_le hw (Reachable.filed h hno)).trans hcard

/-- A client whose listing waits for its connection has its control and its passive socket open, the
one it would send on being the same. -/
theorem resources_bounded_passive :
    (Server.after passiveRun).numClients.toNat = 1 ∧
      (Server.after passiveRun).world.openNumbers.encard ≤ 4 := by
  have hone : (Server.after passiveRun).numClients.toNat = 1 := by decide +kernel
  obtain ⟨-, hopen, -⟩ := resources_bounded passiveRun_renews
  rw [hone] at hopen
  exact ⟨hone, hopen.trans (by norm_num)⟩

end Ftpii
