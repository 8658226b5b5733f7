import Atlaso.Library.Outcomes
import Atlaso.Oidc.Records
import Mathlib.Data.List.Sort

/-!
Provider settings, signing keys and the document that publishes them.

Rotation retires the active key and fixes, from the settings of that moment, how long it
stays published.
-/

namespace Atlaso.Oidc.SigningKeys

open Library.Outcomes Records

def OIDC_TOKEN_LIFETIME_SECONDS : Nat := 300

def activeSigningKey (database : Database) : Option SigningKey :=
  database.signingKeys.find? fun key => key.status = .active ∧ key.activeSlot = some 1

section Provider

variable (services : Services)

def activeKeyErrors (database : Database) : List String :=
  match activeSigningKey database with
  | none => ["Generate an active OIDC signing key before enabling the provider."]
  | some key => services.keyErrors key

def providerValidationErrors (database : Database) (provider : Provider) : List String :=
  database.hostErrors ++ activeKeyErrors services database ++
    (if provider.accessTokenLifetimeSeconds ≠ OIDC_TOKEN_LIFETIME_SECONDS then
      ["OIDC access tokens must use the fixed five-minute lifetime."] else []) ++
    (if provider.idTokenLifetimeSeconds ≠ OIDC_TOKEN_LIFETIME_SECONDS then
      ["OIDC ID tokens must use the fixed five-minute lifetime."] else [])

def protocolProvider (database : Database) (provider : Provider) : Except Raised Unit :=
  if !provider.enabled then .error (.configuration "OIDC provider is disabled.")
  else if providerValidationErrors services database provider ≠ [] then
    .error (.configuration
      (String.intercalate " " (providerValidationErrors services database provider)))
  else .ok ()

/-- Whether a key is in the published set: the active one, and a retired one until its
overlap ends. -/
def publishes (now : Nat) (key : SigningKey) : Bool :=
  decide (key.status = .active) ||
    (decide (key.status = .retired) && key.publishUntil.any fun moment => decide (now < moment))

def jwksDocument (database : Database) (now : Nat) : Except Raised (List PublicJwk) := do
  protocolProvider services database database.provider
  let rows := database.signingKeys.insertionSort fun left right => left.createdAt ≤ right.createdAt
  .ok ((rows.filter (publishes now)).map SigningKey.publicJwk)

/-- The key check of `validate_bearer_token`. -/
def bearerKey (database : Database) (now : Nat) (kid : String) : Except Raised SigningKey :=
  match database.signingKeys.find? fun key => key.kid = kid with
  | some key => if publishes now key then .ok key else .error (.configuration "Invalid token.")
  | none => .error (.configuration "Invalid token.")

/-! ### Settings -/

/-- `update_oidc_provider_settings`: the bounds of its payload, then readiness. -/
def updateOidcProviderSettings (database : Database) (payload : Provider) :
    Except Raised Database :=
  if !(decide (60 ≤ payload.accessTokenLifetimeSeconds) &&
      decide (payload.accessTokenLifetimeSeconds ≤ 3600) &&
      decide (60 ≤ payload.idTokenLifetimeSeconds) &&
      decide (payload.idTokenLifetimeSeconds ≤ 3600) &&
      decide (30 ≤ payload.authorizationCodeLifetimeSeconds) &&
      decide (payload.authorizationCodeLifetimeSeconds ≤ 300) &&
      decide (payload.clockSkewSeconds ≤ 300) &&
      decide (300 ≤ payload.signingKeyOverlapSeconds) &&
      decide (payload.signingKeyOverlapSeconds ≤ 604800)) then
    .error (.badRequest "The provider settings are out of range.")
  else if payload.enabled ∧ providerValidationErrors services database payload ≠ [] then
    .error (.conflict ("OIDC provider readiness validation failed: " ++
      String.intercalate " " (providerValidationErrors services database payload)))
  else .ok { database with provider := payload }

/-- `max(low, min(value, high))` of a form value. -/
def clamped (low high : Nat) (value : Int) : Nat := (max (low : Int) (min value high)).toNat

structure ProviderForm where
  enabled : Bool
  (accessTokenLifetimeSeconds idTokenLifetimeSeconds authorizationCodeLifetimeSeconds : Int)
  (clockSkewSeconds signingKeyOverlapSeconds : Int)
  deriving DecidableEq, Repr

/-- `update_oidc_provider_from_ui`: values out of range are moved into it, and a provider
that is not ready is saved disabled. -/
def updateOidcProviderFromUi (database : Database) (form : ProviderForm) : Database :=
  let provider : Provider := {
    enabled := form.enabled
    accessTokenLifetimeSeconds := clamped 60 3600 form.accessTokenLifetimeSeconds
    idTokenLifetimeSeconds := clamped 60 3600 form.idTokenLifetimeSeconds
    authorizationCodeLifetimeSeconds := clamped 30 300 form.authorizationCodeLifetimeSeconds
    clockSkewSeconds := clamped 0 300 form.clockSkewSeconds
    signingKeyOverlapSeconds := clamped 300 604800 form.signingKeyOverlapSeconds }
  let ready := providerValidationErrors services database provider = []
  { database with provider := { provider with enabled := form.enabled && decide ready } }

end Provider

/-! ### Keys -/

/-- How long the retired key has to stay published. -/
def overlapSeconds (database : Database) : Nat :=
  let provider := database.provider
  let longestClientLifetime := (database.clients.map fun client =>
    max client.accessTokenLifetimeSeconds client.idTokenLifetimeSeconds).foldr max 0
  let minimumOverlap := max (max provider.accessTokenLifetimeSeconds
    provider.idTokenLifetimeSeconds) longestClientLifetime + provider.clockSkewSeconds
  max provider.signingKeyOverlapSeconds minimumOverlap

def retire (database : Database) (now id : Nat) (key : SigningKey) : SigningKey :=
  if key.id = id then
    { key with
      status := .retired
      activeSlot := none
      retiredAt := some now
      publishUntil := some (addSeconds now (overlapSeconds database)) }
  else key

def retireActive (database : Database) (now : Nat) : List SigningKey :=
  match activeSigningKey database with
  | none => database.signingKeys
  | some previous => database.signingKeys.map (retire database now previous.id)

/-- `generate_signing_key`; the row's number, identifier and public form come from the table
and from the key generator. -/
def generateSigningKey (database : Database) (rotate : Bool) (now id : Nat)
    (publicJwk : PublicJwk) : Except Raised Database :=
  let rows := retireActive database now
  if (activeSigningKey database).isSome && !rotate then
    .error (.conflict "An active OIDC signing key already exists; use the rotation action.")
  else if publicJwk.kid = "" then
    .error (.badRequest "OIDC signing key generation did not produce a key identifier.")
  else if rows.any fun key => decide (key.id = id) || decide (key.kid = publicJwk.kid) ||
      decide (key.activeSlot = some 1) then
    .error .integrity
  else .ok { database with
    signingKeys := rows ++ [{
      id := id
      kid := publicJwk.kid
      publicJwk := publicJwk
      status := .active
      activeSlot := some 1
      createdAt := now
      retiredAt := none
      publishUntil := none }] }

def deleteRetiredSigningKey (database : Database) (id now : Nat) : Except Raised Database :=
  match database.signingKeys.find? fun key => key.id = id with
  | none => .error (.notFound "OIDC signing key not found.")
  | some key =>
    if key.status = .active ∨ key.activeSlot.isSome then
      .error (.conflict "The active OIDC signing key cannot be deleted; rotate it first.")
    else match key.publishUntil with
      | none => .error (.conflict "Only a retired OIDC signing key can be deleted.")
      | some moment =>
        if now < moment then
          .error (.conflict
            "The retired OIDC signing key must remain published until its overlap window ends.")
        else .ok { database with
          signingKeys := database.signingKeys.filter fun key => key.id ≠ id }

/-- `_sign_token`: the identifier of the key that signs. -/
def signingKid (database : Database) : Except Raised String :=
  match activeSigningKey database with
  | some key => .ok key.kid
  | none => .error (.configuration "OIDC signing key unavailable.")

end Atlaso.Oidc.SigningKeys
