import ThingHub.Client.Basic
import ThingHub.Proofs.Connection.Window
import ThingHub.Proofs.Settings.Overlay

/-! # The connect timeout of a client

Settings keep a timeout in whole seconds, and zero seconds stand for no limit. A timeout shrinks by
less than a second this way, except that one shorter than a second is no limit any more: a start
with it ends only when the broker answers. -/

namespace ThingHub

open Series

/-! ## Timeouts in the settings -/

namespace ConnectionSettings

variable (t : Duration) (s : ConnectionSettings)

theorem connectTimeout_withConnectTimeout : (s.withConnectTimeout t).connectTimeout =
    .ofSecs (Nat.min t.secs (UInt64.size - 1)) := by
  have hword : Nat.min t.secs (UInt64.size - 1) < UInt64.size :=
    lt_of_le_of_lt (Nat.min_le_right _ _) (by decide)
  exact congrArg Duration.ofSecs (UInt64.toNat_ofNat_of_lt hword)

theorem connectTimeout_eq_zero_iff :
    (s.withConnectTimeout t).connectTimeout = .zero ↔ t < .ofSecs 1 := by
  obtain ⟨nanos⟩ := t
  rw [connectTimeout_withConnectTimeout]
  show Duration.mk (min (nanos / 1000000000) (UInt64.size - 1) * 1000000000) = ⟨0⟩ ↔
    nanos < 1 * 1000000000
  rw [Duration.mk.injEq]
  have hsize : 0 < UInt64.size - 1 := by decide
  omega

theorem connectTimeout_le : (s.withConnectTimeout t).connectTimeout ≤ t := by
  rw [connectTimeout_withConnectTimeout]
  calc min t.secs (UInt64.size - 1) * 1000000000
      ≤ t.nanos / 1000000000 * 1000000000 := Nat.mul_le_mul_right _ (Nat.min_le_left _ _)
    _ ≤ t.nanos := Nat.div_mul_le_self _ _

variable {t}

theorem connectTimeout_of_lt (h : t.secs < UInt64.size) :
    (s.withConnectTimeout t).connectTimeout = .ofSecs t.secs := by
  rw [connectTimeout_withConnectTimeout]
  exact congrArg Duration.ofSecs (Nat.min_eq_left (Nat.le_sub_one_of_lt h))

/-- Saved settings are loaded as they were. -/
theorem decode_write : decode (Bytes.ofChars s.write) = .ok s := by
  have hread := (vocabulary_describes.overlays .default s.text_write).1 s.distinct_givens
  rwa [s.overlay_givens] at hread

end ConnectionSettings

/-! ## Starts -/

namespace HubClient

variable {σ : Type} {link : Link σ} {folder : Folder} {host : String} {millis turns n : Nat}
  {attempts : Nat → Attempt} {reason : Nat → ConnectError} {client : HubClient}
  {credential : Credential} {transport : Transport} {s : σ}

section

variable (hauth : client.auth.resolve folder = .ok credential)
  (htransport : credential.transport folder client.connection.settings = .ok transport)
include hauth htransport

theorem start_of_unfinished {elapsed : Duration}
    (hseries : retry client.connection.settings.connectTimeout attempts turns 1 .zero =
      .unfinished n elapsed) :
    client.start link folder host millis turns attempts s = .unfinished := by
  unfold start
  rw [hauth]
  dsimp only
  rw [Connection.connect_of_unfinished htransport hseries]

theorem start_of_gaveUp {elapsed : Duration} {why : ConnectError}
    (hseries : retry client.connection.settings.connectTimeout attempts turns 1 .zero =
      .gaveUp why n elapsed) :
    client.start link folder host millis turns attempts s =
      .settled (.error (.connect why)) { client with
        connection := client.connection.close.abandoned
          (ThingHub.clientId host credential.identity millis) } s := by
  unfold start
  rw [hauth]
  dsimp only
  rw [Connection.connect_of_gaveUp htransport hseries]
  rfl

/-- Without a limit, a start goes on for as long as no attempt succeeds. -/
theorem start_never_ends (hfailing : Failing attempts reason)
    (hzero : client.connection.settings.connectTimeout = .zero) (turns : Nat) :
    client.start link folder host millis turns attempts s = .unfinished :=
  start_of_unfinished hauth htransport (retry_of_fits hfailing fun _ _ => .inl hzero)

/-- With a limit, a start whose attempts all fail comes to its end. -/
theorem exists_start_gives_up (hfailing : Failing attempts reason)
    (hlimit : client.connection.settings.connectTimeout ≠ .zero) :
    ∃ n after, waited (n - 1) ≤ client.connection.settings.connectTimeout ∧ ∀ turns ≥ n,
      client.start link folder host millis turns attempts s =
        .settled (.error (.connect (reason n))) after s := by
  obtain ⟨n, -, hn⟩ := exists_closes client.connection.settings.connectTimeout attempts
  have hseries : ∀ turns ≥ n, retry client.connection.settings.connectTimeout attempts turns 1
      .zero = .gaveUp (reason n) n (failedAt attempts n) := by
    intro turns hturns
    rw [hn.retry_eq hfailing hlimit, if_neg (Nat.not_lt.mpr hturns)]
  exact ⟨n, _, hn.waited_le, fun turns hturns =>
    start_of_gaveUp hauth htransport (hseries turns hturns)⟩

end

/-- A timeout in the settings is kept in whole seconds. So it is kept as zero, which is no limit,
not just if it is zero but whenever it is shorter than a second; it never becomes longer, loses
only the part of a second, and comes back from saved settings as it was. While the broker cannot be
reached, a start with a timeout below a second never ends, and one with a longer timeout ends
within it. -/
theorem timeout_kept_in_whole_seconds (t : Duration) (settings : ConnectionSettings) :
    let configured := settings.withConnectTimeout t
    (configured.connectTimeout = .zero ↔ t < .ofSecs 1) ∧
    ((configured.connectTimeout = .zero ↔ t = .zero) ↔ t = .zero ∨ .ofSecs 1 ≤ t) ∧
    configured.connectTimeout ≤ t ∧
    (t.secs < UInt64.size → configured.connectTimeout = .ofSecs t.secs) ∧
    ConnectionSettings.decode (Bytes.ofChars configured.write) = .ok configured ∧
    ∀ (σ : Type) (link : Link σ) (folder : Folder) (host : String) (millis : Nat)
      (attempts : Nat → Attempt) (reason : Nat → ConnectError) (client : HubClient)
      (credential : Credential) (transport : Transport) (s : σ),
      client.connection.settings = configured →
      client.auth.resolve folder = .ok credential →
      credential.transport folder configured = .ok transport →
      Failing attempts reason →
      (t < .ofSecs 1 → ∀ turns,
        client.start link folder host millis turns attempts s = .unfinished) ∧
      (.ofSecs 1 ≤ t → ∃ n after, waited (n - 1) ≤ t ∧ ∀ turns ≥ n,
        client.start link folder host millis turns attempts s =
          .settled (.error (.connect (reason n))) after s) := by
  intro configured
  have hzero : configured.connectTimeout = .zero ↔ t < .ofSecs 1 :=
    settings.connectTimeout_eq_zero_iff t
  have hle : configured.connectTimeout ≤ t := settings.connectTimeout_le t
  refine ⟨hzero, ?_, hle, settings.connectTimeout_of_lt, configured.decode_write, ?_⟩
  · have hshort : t = .zero → t < .ofSecs 1 := by
      rintro rfl
      decide
    rw [hzero, ← Duration.not_lt]
    tauto
  · intro σ link folder host millis attempts reason client credential transport s hsettings hauth
      htransport hfailing
    rw [← hsettings] at htransport hzero hle
    constructor
    · intro hshort
      exact start_never_ends hauth htransport hfailing (hzero.mpr hshort)
    · intro hlong
      have hlimit := fun h => Duration.not_lt.mpr hlong (hzero.mp h)
      obtain ⟨n, after, hwaited, hends⟩ := exists_start_gives_up hauth htransport hfailing hlimit
      exact ⟨n, after, le_trans (α := Nat) hwaited hle, hends⟩

/-- A second and a half is kept as one second, and a start ends; half a second is kept as none, and
a start with the same client never ends. -/
theorem timeout_kept_in_whole_seconds_halves :
    let client := fun millis =>
      consumer (ConnectionSettings.default.withConnectTimeout (.ofMillis millis)) "u" "p"
    let start := fun millis turns =>
      (client millis).start Channel.link .empty "host" 0 turns unreachable (.new 1)
    (client 1500).connection.settings.connectTimeout = .ofSecs 1 ∧
    (∃ n after, ∀ turns ≥ n, start 1500 turns =
      .settled (.error (.connect .network)) after (.new 1)) ∧
    ∀ turns, start 500 turns = .unfinished := by
  intro client start
  obtain ⟨-, -, -, hkept, -, hlong⟩ :=
    timeout_kept_in_whole_seconds (.ofMillis 1500) ConnectionSettings.default
  obtain ⟨-, -, -, -, -, hshort⟩ :=
    timeout_kept_in_whole_seconds (.ofMillis 500) ConnectionSettings.default
  obtain ⟨n, after, -, hends⟩ := (hlong Channel Channel.link .empty "host" 0 unreachable _
    (client 1500) (.password "u" "p") .tcp (.new 1) rfl rfl rfl failing_unreachable).2 (by decide)
  have hendless := (hshort Channel Channel.link .empty "host" 0 unreachable _
    (client 500) (.password "u" "p") .tcp (.new 1) rfl rfl rfl failing_unreachable).1 (by decide)
  exact ⟨hkept (by decide), ⟨n, after, hends⟩, hendless⟩

/-- With a timeout of 999 milliseconds, which is a limit, the settings have none, and a start never
ends while the broker cannot be reached. -/
theorem short_timeout_is_no_limit :
    let configured := ConnectionSettings.default.withConnectTimeout (.ofMillis 999)
    ¬ (configured.connectTimeout = .zero ↔ Duration.ofMillis 999 = .zero) ∧
    ∀ turns, (consumer configured "u" "p").start Channel.link .empty "host" 0 turns unreachable
      (.new 1) = .unfinished := by
  intro configured
  have hzero : configured.connectTimeout = .zero :=
    (ConnectionSettings.connectTimeout_eq_zero_iff _ _).mpr (by decide)
  refine ⟨fun h => absurd (h.mp hzero) (by decide), fun turns => ?_⟩
  have hauth : (consumer configured "u" "p").auth.resolve .empty = .ok (.password "u" "p") := rfl
  have htransport : (Credential.password "u" "p").transport .empty configured = .ok .tcp := rfl
  exact start_never_ends hauth htransport failing_unreachable hzero turns

end HubClient

end ThingHub
