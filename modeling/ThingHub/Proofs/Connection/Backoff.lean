import Mathlib.Algebra.Order.Ring.Nat
import ThingHub.Connection.Loop

/-! # The waits before reconnects

While the connection keeps failing, the loop waits longer with every failure: twice the wait
before, cut off at the limit of the settings. Doublings are counted up to sixteen only, which make
a tenth of a second into 6553.6 seconds. The wait grows no further then, also where the limit is
longer. -/

namespace ThingHub

/-! ## The wait after so many failures -/

section Delays

variable (limit : Duration)

theorem nanos_reconnectDelay (n : Nat) :
    (reconnectDelay (n + 1) limit).nanos = min (2 ^ min n 16 * 100000000) limit.nanos := rfl

theorem reconnectDelay_one : reconnectDelay 1 limit = (Duration.ofMillis 100).min limit := rfl

theorem reconnectDelay_le (n : Nat) : reconnectDelay n limit ≤ limit :=
  Nat.min_le_right _ _

theorem reconnectDelay_le_succ (n : Nat) :
    reconnectDelay n limit ≤ reconnectDelay (n + 1) limit := by
  cases n with
  | zero => exact Nat.le_refl _
  | succ n =>
      have hpow : 2 ^ min n 16 ≤ 2 ^ min (n + 1) 16 :=
        Nat.pow_le_pow_right (by decide) (by omega)
      show (reconnectDelay (n + 1) limit).nanos ≤ (reconnectDelay (n + 2) limit).nanos
      rw [nanos_reconnectDelay, nanos_reconnectDelay]
      omega

theorem reconnectDelay_le_add (n more : Nat) :
    reconnectDelay n limit ≤ reconnectDelay (n + more) limit := by
  induction more with
  | zero => exact Nat.le_refl _
  | succ more ih => exact Nat.le_trans ih (reconnectDelay_le_succ limit (n + more))

/-- As long as doublings are counted, the wait is doubled and cut off. -/
theorem reconnectDelay_succ_of_lt {n : Nat} (h : n < 16) :
    reconnectDelay (n + 2) limit = ((reconnectDelay (n + 1) limit).scale 2).min limit := by
  have hpow : 2 ^ min (n + 1) 16 = 2 * 2 ^ min n 16 := by
    rw [Nat.min_eq_left h, Nat.min_eq_left (Nat.le_of_lt h), pow_succ, Nat.mul_comm]
  have hnanos : (reconnectDelay (n + 2) limit).nanos =
      min (2 * (reconnectDelay (n + 1) limit).nanos) limit.nanos := by
    rw [nanos_reconnectDelay, nanos_reconnectDelay, hpow]
    omega
  exact congrArg Duration.mk hnanos

/-- After sixteen doublings the wait stays the same. -/
theorem reconnectDelay_of_ge {n : Nat} (h : 17 ≤ n) :
    reconnectDelay n limit = (Duration.ofMillis 6553600).min limit := by
  obtain ⟨more, rfl⟩ := Nat.exists_eq_add_of_le' h
  have hnanos : (reconnectDelay (more + 17) limit).nanos = min 6553600000000 limit.nanos := by
    rw [nanos_reconnectDelay, Nat.min_eq_right (Nat.le_add_left 16 more)]
    rfl
  exact congrArg Duration.mk hnanos

/-- Each wait is twice the wait before, cut off at the limit, just as long as doublings are
counted, or if the limit is no longer than what sixteen of them make. -/
theorem reconnectDelay_succ_iff (n : Nat) :
    reconnectDelay (n + 2) limit = ((reconnectDelay (n + 1) limit).scale 2).min limit ↔
      n < 16 ∨ limit ≤ .ofMillis 6553600 := by
  by_cases hn : n < 16
  · exact iff_of_true (reconnectDelay_succ_of_lt limit hn) (.inl hn)
  · -- Both sides come from one and the same wait, so twice that must be cut off to it again.
    rw [reconnectDelay_of_ge limit (by omega), reconnectDelay_of_ge limit (by omega),
      or_iff_right hn]
    show Duration.mk (min 6553600000000 limit.nanos) =
      ⟨min (2 * min 6553600000000 limit.nanos) limit.nanos⟩ ↔ limit.nanos ≤ 6553600000000
    rw [Duration.mk.injEq]
    omega

theorem exists_reconnectDelay_eq_iff :
    (∃ n, reconnectDelay n limit = limit) ↔ limit ≤ .ofMillis 6553600 := by
  constructor
  · rintro ⟨n, hn⟩
    have hlast : reconnectDelay (n + 17) limit ≤ .ofMillis 6553600 := by
      rw [reconnectDelay_of_ge limit (Nat.le_add_left 17 n)]
      exact Nat.min_le_left _ _
    exact hn ▸ Nat.le_trans (reconnectDelay_le_add limit n 17) hlast
  · intro hle
    refine ⟨17, ?_⟩
    rw [reconnectDelay_of_ge limit (Nat.le_refl 17)]
    exact congrArg Duration.mk (Nat.min_eq_right hle)

end Delays

/-! ## Failures in a row -/

namespace Connection

variable {η σ : Type} (link : Link σ)
  (deliver : String → Bytes → Connection η → σ → Connection η × σ)

/-- The waits of the loop while turn after turn fails. -/
def waits : (turns failures : Nat) → Connection η → σ → List Duration
  | 0, _, _, _ => []
  | turns + 1, failures, c, s =>
    match c.turn link deliver false false .failed failures s with
    | (.running failures, next, s) => c.reconnectWait failures :: waits turns failures next s
    | (.over, _, _) => []

/-- Each failure counts, and the limit stays that of the settings. -/
theorem waits_eq (turns failures : Nat) (c : Connection η) (s : σ) :
    c.waits link deliver turns failures s = (List.range' (failures + 1) turns).map
      (reconnectDelay · c.settings.maxReconnectInterval) := by
  induction turns generalizing failures c with
  | zero => rfl
  | succ turns ih => exact congrArg _ (ih (failures + 1) (c.lose.setState .connecting))

/-- The wait after the first failure is a tenth of a second, and after each further failure twice
the wait before, cut off at the limit: just as long as no more than sixteen failures came before,
or if the limit is no more than 6553.6 seconds. The wait never becomes shorter, nor longer than
the limit. From the seventeenth failure on it is the same, namely the limit if that is no more
than 6553.6 seconds and otherwise those, so that a longer limit is never reached. And these are
the waits that the loop makes while it fails. -/
theorem waits_double_sixteen_times (limit : Duration) :
    reconnectDelay 1 limit = (Duration.ofMillis 100).min limit ∧
    (∀ n, reconnectDelay (n + 2) limit = ((reconnectDelay (n + 1) limit).scale 2).min limit ↔
      n + 1 ≤ 16 ∨ limit ≤ .ofMillis 6553600) ∧
    (∀ n more, reconnectDelay n limit ≤ reconnectDelay (n + more) limit) ∧
    (∀ n, reconnectDelay n limit ≤ limit) ∧
    (∀ more, reconnectDelay (17 + more) limit = (Duration.ofMillis 6553600).min limit) ∧
    ((∃ n, reconnectDelay n limit = limit) ↔ limit ≤ .ofMillis 6553600) ∧
    ∀ (η σ : Type) (link : Link σ)
      (deliver : String → Bytes → Connection η → σ → Connection η × σ) (c : Connection η) (s : σ)
      (turns : Nat), c.settings.maxReconnectInterval = limit →
      c.waits link deliver turns 0 s = (List.range' 1 turns).map (reconnectDelay · limit) := by
  refine ⟨reconnectDelay_one limit, reconnectDelay_succ_iff limit, reconnectDelay_le_add limit,
    reconnectDelay_le limit, ?_, exists_reconnectDelay_eq_iff limit, ?_⟩
  · intro more
    exact reconnectDelay_of_ge limit (Nat.le_add_right 17 more)
  · rintro η σ link deliver c s turns rfl
    exact waits_eq link deliver turns 0 c s

/-- With the usual limit of a minute, eleven failures in a row double the wait nine times, and the
last wait is cut off at the limit. -/
theorem waits_double_sixteen_times_usual :
    let c : Connection Nat := .new .default
    c.settings.maxReconnectInterval = .ofSecs 60 ∧
    c.waits Channel.link (fun _ _ c s => (c, s)) 11 0 (.new 1) =
      (List.range' 1 11).map (reconnectDelay · (.ofSecs 60)) ∧
    reconnectDelay 10 (.ofSecs 60) = .ofMillis 51200 ∧
    ∃ n, reconnectDelay n (.ofSecs 60) = .ofSecs 60 := by
  intro c
  obtain ⟨-, -, -, -, -, hreached, hwaits⟩ := waits_double_sixteen_times (.ofSecs 60)
  exact ⟨rfl, hwaits Nat Channel Channel.link _ c (.new 1) 11 rfl, by decide,
    hreached.mpr (by decide)⟩

/-- With a limit of 7000 seconds the wait after the eighteenth failure is not twice the wait
before, and no wait ever is the limit. -/
theorem waits_stop_short :
    let limit := Duration.ofSecs 7000
    reconnectDelay 18 limit ≠ ((reconnectDelay 17 limit).scale 2).min limit ∧
      ∀ n, reconnectDelay n limit ≠ limit := by
  intro limit
  have hlong : ¬ limit ≤ .ofMillis 6553600 := by decide
  refine ⟨?_, fun n hn => hlong ((exists_reconnectDelay_eq_iff limit).mp ⟨n, hn⟩)⟩
  intro hdoubled
  rcases (reconnectDelay_succ_iff limit 16).mp hdoubled with hless | hle
  · exact Nat.lt_irrefl 16 hless
  · exact hlong hle

end Connection

end ThingHub
