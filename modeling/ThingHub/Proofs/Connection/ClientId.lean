import Mathlib.Data.List.Basic
import ThingHub.Proofs.Connection.Connect
import ThingHub.Proofs.Text.Decimal

/-! # Client ids tell clients apart

On one host, the id under which a client appears at the broker belongs to one identity and one
millisecond. Whatever dashes and digits host and identity hold, the last dash is the one in front
of the time, since the digits of a number hold none. -/

namespace ThingHub

/-! ## Ids -/

/-- The identity and the time that stand in an id of a host: what follows the host, cut at its last
dash. -/
def clientOf? (host id : String) : Option (String × Nat) :=
  ((host ++ "-").toList.isPrefixOf? id.toList).bind fun rest =>
    (Text.cutLast? '-' (String.ofList rest)).map fun parts =>
      (parts.1, Nat.ofDigitChars 10 parts.2.toList 0)

theorem clientOf?_clientId (host identity : String) (millis : Nat) :
    clientOf? host (clientId host identity millis) = some (identity, millis) := by
  have hhost : (host ++ "-").toList.isPrefixOf? (clientId host identity millis).toList =
      some (identity ++ "-" ++ millis.repr).toList := by
    apply List.isPrefixOf?_eq_some_iff_append_eq.mpr
    simp [clientId]
  have hcut : Text.cutLast? '-' (identity ++ "-" ++ millis.repr) = some (identity, millis.repr) :=
    Text.cutLast?_append_repr (by decide) identity millis
  rw [clientOf?, hhost, Option.bind_some, String.ofList_toList, hcut, Option.map_some,
    (Text.decimal_repr millis).value]

theorem clientId_inj {host i j : String} {m n : Nat} :
    clientId host i m = clientId host j n ↔ i = j ∧ m = n := by
  constructor
  · intro h
    have hread := clientOf?_clientId host i m
    rw [h, clientOf?_clientId, Option.some.injEq, Prod.mk.injEq] at hread
    exact ⟨hread.1.symm, hread.2.symm⟩
  · rintro ⟨rfl, rfl⟩
    rfl

/-! ## Connects -/

namespace Connection

variable {η σ : Type}

/-- A connect goes by the id that it was begun with, whatever comes of it. -/
theorem clientId_of_connect {start after : Connection η} {link : Link σ} {folder : Folder}
    {host : String} {millis turns : Nat} {attempts : Nat → Attempt} {credential : Credential}
    {transport : Transport} {window : Duration} {result : Except ConnectError Unit} {s s' : σ}
    (htransport : credential.transport folder start.settings = .ok transport)
    (h : start.connect link folder host millis turns attempts credential window s =
      .settled result after s') :
    after.clientId = some (ThingHub.clientId host credential.identity millis) := by
  have hsettles := settles_of_connect h
  rw [htransport] at hsettles
  cases hsettles <;> rfl

/-- On one host, client ids with another identity or another time are other ids, and identity and
time can be read off an id: off any, and so off the one that a connect leaves at the broker. -/
theorem clientId_tells_identity_and_time (host : String) :
    (∀ i j m n, ThingHub.clientId host i m = ThingHub.clientId host j n ↔ i = j ∧ m = n) ∧
    (∀ i m, clientOf? host (ThingHub.clientId host i m) = some (i, m)) ∧
    ∀ (η σ : Type) (start after : Connection η) (link : Link σ) (folder : Folder)
      (millis turns : Nat) (attempts : Nat → Attempt) (credential : Credential)
      (transport : Transport) (window : Duration) (result : Except ConnectError Unit) (s s' : σ),
      credential.transport folder start.settings = .ok transport →
      start.connect link folder host millis turns attempts credential window s =
        .settled result after s' →
      after.clientId.bind (clientOf? host) = some (credential.identity, millis) := by
  refine ⟨fun _ _ _ _ => clientId_inj, clientOf?_clientId host, ?_⟩
  intro η σ start after link folder millis turns attempts credential transport window result s s'
    htransport hconnect
  rw [clientId_of_connect htransport hconnect, Option.bind_some, clientOf?_clientId]

/-- A connect of the identity `cam-2-17` on the host `hub-1`, whose first attempt is accepted. -/
theorem clientId_tells_identity_and_time_dashes :
    let start : Connection Nat := .new .default
    let credential := Credential.password "cam-2-17" "p"
    credential.transport .empty start.settings = .ok .tcp ∧
    ∃ after : Connection Nat, ∃ channel,
      start.connect Channel.link .empty "hub-1" 230 1 (fun _ => ⟨.zero, .ok ()⟩) credential .zero
        (.new 1) = .settled (.ok ()) after channel ∧
      after.clientId.bind (clientOf? "hub-1") = some ("cam-2-17", 230) := by
  intro start credential
  obtain ⟨-, -, hconnect⟩ := clientId_tells_identity_and_time "hub-1"
  refine ⟨rfl, _, _, rfl, ?_⟩
  exact hconnect Nat Channel start _ Channel.link .empty 230 1 (fun _ => ⟨.zero, .ok ()⟩) credential
    .tcp .zero _ (.new 1) _ rfl rfl

/-- Without the host an id does not tell the identity. -/
example : ThingHub.clientId "hub" "1-cam" 230 = ThingHub.clientId "hub-1" "cam" 230 := by decide

end Connection

end ThingHub
