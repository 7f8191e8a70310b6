import Mathlib.Algebra.BigOperators.Intervals
import Mathlib.Algebra.Order.BigOperators.Group.Finset
import Mathlib.Tactic.IntervalCases
import ThingHub.Proofs.Connection.Connect

/-! # The window of a connect

Attempts that all fail are made one second apart, then two and so on, and the series ends with the
first failure whose wait would end outside the window. The waits grow, so any window holds only so
many of them; and within the window no attempt is left out. -/

namespace ThingHub

namespace Duration

theorem zero_lt_iff {d : Duration} : zero < d ↔ d ≠ zero := by
  obtain ⟨nanos⟩ := d
  show 0 < nanos ↔ _
  rw [Nat.pos_iff_ne_zero, zero, ne_eq, ne_eq, mk.injEq]

theorem not_lt {a b : Duration} : ¬ a < b ↔ b ≤ a := Nat.not_lt

end Duration

/-! ## The times of a series -/

namespace Series

variable (attempts : Nat → Attempt)

/-- How long the first `n` attempts take together. -/
def tried (n : Nat) : Duration := ⟨∑ i ∈ Finset.Icc 1 n, (attempts i).took.nanos⟩

/-- How long the waits after the first `n` failures are together: as many seconds as there were
failures so far, at most two minutes each. -/
def waited (n : Nat) : Duration := .ofSecs (∑ i ∈ Finset.Icc 1 n, min i 120)

/-- When the `n`-th attempt fails, if all before it failed too. -/
def failedAt (n : Nat) : Duration := (tried attempts n).add (waited (n - 1))

/-- When the wait after the `n`-th failure ends. -/
def resumedAt (n : Nat) : Duration := (tried attempts n).add (waited n)

theorem failedAt_succ (n : Nat) :
    failedAt attempts (n + 1) = (resumedAt attempts n).add (attempts (n + 1)).took := by
  simp only [failedAt, resumedAt, tried, Duration.add, Nat.add_sub_cancel,
    Finset.sum_Icc_succ_top (Nat.le_add_left 1 n), Duration.mk.injEq]
  omega

theorem connectRetryDelay_eq (n : Nat) : connectRetryDelay n = .ofSecs (min n 120) := by
  simp only [connectRetryDelay, connectRetryStep, maxConnectRetryDelay, Duration.scale,
    Duration.min, Duration.ofSecs, Nat.min_def, Duration.mk.injEq]
  split <;> split <;> omega

theorem resumedAt_succ (n : Nat) : resumedAt attempts (n + 1) =
    (failedAt attempts (n + 1)).add (connectRetryDelay (n + 1)) := by
  rw [connectRetryDelay_eq]
  simp only [failedAt, resumedAt, waited, Duration.add, Duration.ofSecs, Nat.add_sub_cancel,
    Finset.sum_Icc_succ_top (Nat.le_add_left 1 n), Duration.mk.injEq]
  omega

theorem waited_le_resumedAt (n : Nat) : waited n ≤ resumedAt attempts n :=
  Nat.le_add_left _ _

/-- Every wait takes a second or more. -/
theorem ofSecs_le_resumedAt (n : Nat) : .ofSecs n ≤ resumedAt attempts n := by
  have hone : ∀ i ∈ Finset.Icc 1 n, 1 ≤ min i 120 := by
    intro i hi
    exact Nat.le_min.mpr ⟨(Finset.mem_Icc.mp hi).1, by decide⟩
  have hseconds : n ≤ ∑ i ∈ Finset.Icc 1 n, min i 120 := by
    calc n = (Finset.Icc 1 n).card := (Nat.card_Icc 1 n).symm
      _ = ∑ _i ∈ Finset.Icc 1 n, 1 := Finset.card_eq_sum_ones _
      _ ≤ ∑ i ∈ Finset.Icc 1 n, min i 120 := Finset.sum_le_sum hone
  exact le_trans (Nat.mul_le_mul_right _ hseconds) (waited_le_resumedAt attempts n)

end Series

open Series

/-! ## Runs -/

section

variable {attempts : Nat → Attempt} {reason : Nat → ConnectError} {window : Duration}

/-- The attempts all fail. -/
def Failing (attempts : Nat → Attempt) (reason : Nat → ConnectError) : Prop :=
  ∀ n, 0 < n → (attempts n).outcome = .error (reason n)

theorem failing_unreachable : Failing unreachable fun _ => .network := fun _ _ => rfl

/-- One failure, and what follows from it. -/
theorem retry_of_failing (h : Failing attempts reason) (window : Duration) (turns n : Nat) :
    retry window attempts (turns + 1) (n + 1) (resumedAt attempts n) =
      if window ≠ .zero ∧ window < resumedAt attempts (n + 1) then
        .gaveUp (reason (n + 1)) (n + 1) (failedAt attempts (n + 1))
      else retry window attempts turns (n + 2) (resumedAt attempts (n + 1)) := by
  rw [retry, h (n + 1) n.succ_pos, ← failedAt_succ, ← resumedAt_succ]

/-- As long as the waits fit, the series goes on. -/
theorem retry_add (h : Failing attempts reason) {k : Nat}
    (hfits : ∀ m ≤ k, window = .zero ∨ resumedAt attempts m ≤ window) (turns : Nat) :
    retry window attempts (turns + k) 1 .zero =
      retry window attempts turns (k + 1) (resumedAt attempts k) := by
  induction k generalizing turns with
  | zero => rfl
  | succ k ih =>
      have hgoes : ¬ (window ≠ .zero ∧ window < resumedAt attempts (k + 1)) := by
        rintro ⟨hne, hlt⟩
        exact (hfits (k + 1) le_rfl).elim hne (Duration.not_lt.mpr · hlt)
      have hturns : turns + (k + 1) = turns + 1 + k := by omega
      rw [hturns, ih (fun m hm => hfits m (hm.trans k.le_succ)) (turns + 1),
        retry_of_failing h, if_neg hgoes]

/-- As long as the waits fit, the series is not at its end. -/
theorem retry_of_fits (h : Failing attempts reason) {turns : Nat}
    (hfits : ∀ m ≤ turns, window = .zero ∨ resumedAt attempts m ≤ window) :
    retry window attempts turns 1 .zero = .unfinished turns (resumedAt attempts turns) := by
  have hseries := retry_add h hfits 0
  rw [Nat.zero_add] at hseries
  exact hseries

/-- The wait after the `n`-th failure is the first that does not fit. -/
structure Closes (window : Duration) (attempts : Nat → Attempt) (n : Nat) : Prop where
  fits : ∀ m < n, resumedAt attempts m ≤ window
  last : window < resumedAt attempts n

theorem Closes.ne_zero {n : Nat} (hn : Closes window attempts n) : n ≠ 0 := by
  rintro rfl
  exact absurd hn.last (Nat.not_lt_zero _)

/-- The waits that are made fit into the window together. -/
theorem Closes.waited_le {n : Nat} (hn : Closes window attempts n) : waited (n - 1) ≤ window :=
  le_trans (α := Nat) (waited_le_resumedAt attempts _) (hn.fits _ (Nat.sub_one_lt hn.ne_zero))

/-- A window holds no more failures than it has seconds, and one. -/
theorem exists_closes (window : Duration) (attempts : Nat → Attempt) :
    ∃ n ≤ mostAttempts window, Closes window attempts n := by
  have hpast : window < resumedAt attempts (mostAttempts window) := by
    have hseconds : window < .ofSecs (mostAttempts window) :=
      Nat.lt_mul_of_div_lt (Nat.lt_succ_self _) (by decide)
    exact lt_of_lt_of_le (α := Nat) hseconds (ofSecs_le_resumedAt attempts _)
  have hex : ∃ n, window < resumedAt attempts n := ⟨_, hpast⟩
  refine ⟨Nat.find hex, Nat.find_min' hex hpast, fun m hm => ?_, Nat.find_spec hex⟩
  exact Duration.not_lt.mp (Nat.find_min hex hm)

/-- A series of failures ends with the first whose wait does not fit, and before that goes on. -/
theorem Closes.retry_eq {n : Nat} (hn : Closes window attempts n) (h : Failing attempts reason)
    (hwindow : window ≠ .zero) (turns : Nat) :
    retry window attempts turns 1 .zero =
      if turns < n then .unfinished turns (resumedAt attempts turns)
      else .gaveUp (reason n) n (failedAt attempts n) := by
  split
  · rename_i hturns
    exact retry_of_fits h fun m hm => .inr (hn.fits m (hm.trans_lt hturns))
  · rename_i hturns
    obtain ⟨k, rfl⟩ := Nat.exists_eq_succ_of_ne_zero hn.ne_zero
    obtain ⟨more, rfl⟩ := Nat.exists_eq_add_of_le (Nat.le_of_not_lt hturns)
    have hlength : k.succ + more = more + 1 + k := by omega
    rw [hlength, retry_add h fun m hm => .inr (hn.fits m (Nat.lt_succ_of_le hm)),
      retry_of_failing h, if_pos ⟨hwindow, hn.last⟩]

end

/-! ## Connects -/

namespace Connection

variable {attempts : Nat → Attempt} {window : Duration}

/-- A connect whose attempts all fail ends within its window. There is a first failure after which
the wait would end too late; up to it every wait is made and another attempt follows, so that the
waits together fit into the window. With it the connect fails, for the reason of this last attempt,
and leaves neither a session nor a state other than disconnected. -/
theorem connect_gives_up_within_window {reason : Nat → ConnectError}
    (hwindow : .zero < window) (hfailing : Failing attempts reason) :
    ∃ n, 0 < n ∧ n ≤ mostAttempts window ∧
      (∀ m < n, resumedAt attempts m ≤ window) ∧ window < resumedAt attempts n ∧
      waited (n - 1) ≤ window ∧
      (∀ turns, retry window attempts turns 1 .zero =
        if turns < n then .unfinished turns (resumedAt attempts turns)
        else .gaveUp (reason n) n (failedAt attempts n)) ∧
      ∀ (η σ : Type) (start : Connection η) (link : Link σ) (folder : Folder) (host : String)
        (millis : Nat) (credential : Credential) (transport : Transport) (s : σ),
        credential.transport folder start.settings = .ok transport →
        (∀ turns < n, start.connect link folder host millis turns attempts credential window s =
          .unfinished) ∧
        ∃ after : Connection η, after.state.current = .disconnected ∧ after.session = none ∧
          after.registry = start.close.registry ∧
          ∀ turns ≥ n, start.connect link folder host millis turns attempts credential window s =
            .settled (.error (reason n)) after s := by
  have hne := Duration.zero_lt_iff.mp hwindow
  obtain ⟨n, hmost, hn⟩ := exists_closes window attempts
  have hseries := hn.retry_eq hfailing hne
  refine ⟨n, Nat.pos_of_ne_zero hn.ne_zero, hmost, hn.fits, hn.last, hn.waited_le, hseries, ?_⟩
  intro η σ start link folder host millis credential transport s htransport
  refine ⟨fun turns hturns => ?_, ?_⟩
  · exact connect_of_unfinished htransport ((hseries turns).trans (if_pos hturns))
  · refine ⟨start.close.abandoned (ThingHub.clientId host credential.identity millis), ?_, rfl,
      rfl, fun turns hturns => ?_⟩
    · exact StateTracker.current_set .disconnected _
    · exact connect_of_gaveUp htransport ((hseries turns).trans (if_neg (Nat.not_lt.mpr hturns)))

/-- The broker cannot be reached for three seconds: the second wait ends with the window and is
made, the third would end behind it. -/
theorem connect_gives_up_within_window_boundary :
    let start : Connection Nat := .new .default
    let connect := fun turns => start.connect Channel.link .empty "host" 0 turns unreachable
      (.password "u" "p") (.ofSecs 3) (.new 1)
    resumedAt unreachable 2 = .ofSecs 3 ∧ connect 2 = .unfinished ∧
      ∃ after : Connection Nat, after.state.current = .disconnected ∧ after.session = none ∧
        ∀ turns ≥ 3, connect turns = .settled (.error .network) after (.new 1) := by
  intro start connect
  have hwindow : .zero < Duration.ofSecs 3 := by decide
  obtain ⟨n, hpos, -, hfits, hlast, -, -, hconnect⟩ :=
    connect_gives_up_within_window hwindow failing_unreachable
  have hthree : n = 3 := by
    have hle : n ≤ 3 := by
      by_contra hgt
      exact absurd (hfits 3 (Nat.lt_of_not_le hgt)) (by decide)
    interval_cases n
    · exact absurd hlast (by decide)
    · exact absurd hlast (by decide)
    · rfl
  subst hthree
  obtain ⟨hunfinished, after, hstate, hsession, -, hsettled⟩ := hconnect Nat Channel start
    Channel.link .empty "host" 0 (.password "u" "p") .tcp (.new 1) rfl
  exact ⟨rfl, hunfinished 2 (by decide), after, hstate, hsession, hsettled⟩

end Connection

end ThingHub
