import ThingHub.Connection.Basic

/-! # What a connect comes to

A connect first closes what is open. Without a transport it ends there. Otherwise it begins a
session, and either gives it up when its window is over, or the broker accepts it and all that is
registered is replayed. -/

namespace ThingHub.Connection

variable {η σ : Type} {start : Connection η} {link : Link σ} {folder : Folder} {host : String}
  {millis turns n : Nat} {attempts : Nat → Attempt} {credential : Credential}
  {transport : Transport} {window elapsed : Duration} {s : σ}

theorem settings_close (c : Connection η) : c.close.settings = c.settings := by
  unfold close takeSession
  cases c.session with
  | none => rfl
  | some session =>
      dsimp only [endLoop, clearBroker, setState]
      split <;> rfl

/-- A connection whose new session the broker has just accepted. -/
def opened (clientId : String) (c : Connection η) : Connection η :=
  { (c.install clientId).2.setState .connecting with
    session := some ⟨c.generation + 1, true⟩ }.setState .connected

/-- A connection whose new session never came about. -/
def abandoned (clientId : String) (c : Connection η) : Connection η :=
  { (c.install clientId).2.setState .connecting with
    session := none, hasClient := false }.setState .disconnected

theorem confirm_install (clientId : String) (c : Connection η) :
    ((c.install clientId).2.setState .connecting).confirm (c.install clientId).1 =
      .ok (c.opened clientId) := by
  simp [confirm, owns, install, setState, opened]

theorem abandon_install (clientId : String) (c : Connection η) :
    ((c.install clientId).2.setState .connecting).abandon (c.install clientId).1 =
      c.abandoned clientId := by
  simp [abandon, owns, install, setState, abandoned]

section

variable (htransport : credential.transport folder start.settings = .ok transport)
include htransport

theorem connect_of_unfinished
    (hseries : retry window attempts turns 1 .zero = .unfinished n elapsed) :
    start.connect link folder host millis turns attempts credential window s = .unfinished := by
  simp only [connect, settings_close, htransport, hseries]

theorem connect_of_gaveUp {reason : ConnectError}
    (hseries : retry window attempts turns 1 .zero = .gaveUp reason n elapsed) :
    start.connect link folder host millis turns attempts credential window s =
      .settled (.error reason)
        (start.close.abandoned (ThingHub.clientId host credential.identity millis)) s := by
  simp only [connect, settings_close, htransport, hseries, abandon_install]

theorem connect_of_connected
    (hseries : retry window attempts turns 1 .zero = .connected n elapsed) :
    start.connect link folder host millis turns attempts credential window s =
      let opened := start.close.opened (ThingHub.clientId host credential.identity millis)
      .settled (.ok ()) (opened.replayAll link s).1 (opened.replayAll link s).2 := by
  simp only [connect, settings_close, htransport, hseries, confirm_install]

end

theorem connect_of_error {reason : CredentialError}
    (htransport : credential.transport folder start.settings = .error reason) :
    start.connect link folder host millis turns attempts credential window s =
      .settled (.error (.credential reason)) start.close s := by
  simp only [connect, settings_close, htransport]

/-- The ways a connect ends, with the transport that its credential leads to, once what was open
is closed. -/
inductive Settles (link : Link σ) (clientId : String) (closed : Connection η) (s : σ) :
    Except CredentialError Transport → Except ConnectError Unit → Connection η → σ → Prop
  | refused (reason : CredentialError) :
      Settles link clientId closed s (.error reason) (.error (.credential reason)) closed s
  | gaveUp (transport : Transport) (reason : ConnectError) :
      Settles link clientId closed s (.ok transport) (.error reason) (closed.abandoned clientId) s
  | opened (transport : Transport) : Settles link clientId closed s (.ok transport) (.ok ())
      ((closed.opened clientId).replayAll link s).1 ((closed.opened clientId).replayAll link s).2

theorem settles_of_connect {result : Except ConnectError Unit} {after : Connection η} {s' : σ}
    (h : start.connect link folder host millis turns attempts credential window s =
      .settled result after s') :
    Settles link (ThingHub.clientId host credential.identity millis) start.close s
      (credential.transport folder start.settings) result after s' := by
  cases htransport : credential.transport folder start.settings with
  | error reason =>
      cases (connect_of_error htransport).symm.trans h
      exact .refused reason
  | ok transport =>
      cases hseries : retry window attempts turns 1 .zero with
      | unfinished n elapsed => cases (connect_of_unfinished htransport hseries).symm.trans h
      | gaveUp reason n elapsed =>
          cases (connect_of_gaveUp htransport hseries).symm.trans h
          exact .gaveUp transport reason
      | connected n elapsed =>
          cases (connect_of_connected htransport hseries).symm.trans h
          exact .opened transport

end ThingHub.Connection
