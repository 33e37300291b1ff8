/-
TrustModelEdge.Routes.ClientTheorems — the OAuth clients that a sync leaves.

The plural body lists the clients once, beside the policies, and the sync
drops that list: the cache serves the list inside the primary policy. So
the clients survive exactly when the body repeats them there, where
`primaryClients` looks (`keeps_clients_iff`).
-/
import TrustModelEdge.Policy.PluralTheorems
import TrustModelEdge.Routes.DecideTheorems
import TrustModelEdge.Routes.OAuthTheorems

namespace TrustModelEdge.Routes

open Py Policy OAuth Lib

/-! ## The two ways a list of clients arrives -/

/-- The policy of a plural body that is served as the primary: the last one that
has the name of the first one flagged as primary. -/
def effectivePrimary (policies : List EdgePolicy) : Option EdgePolicy :=
  (primaryNameOf policies).bind (fun name => lastWith bundleName name policies)

/-- The clients inside that policy. -/
def primaryClients (policies : List EdgePolicy) : List AuthorizedClient :=
  match effectivePrimary policies with
  | some p => p.authorizedClients
  | none => []

section Sync

variable [PyRuntime]

theorem authorizedClients_install (now : Rat) (p : EdgePolicy) :
    (PolicyCache.install now p).authorizedClients = p.authorizedClients := by
  have hlookup := lookup_install now p (bundleName p)
  rw [if_pos rfl] at hlookup
  have hsnap : (PolicyCache.install now p).snapshot = some (snapshotOf now p) := hlookup
  simp only [PolicyCache.authorizedClients, hsnap]
  rfl

theorem authorizedClients_installAll (now : Rat) (policies : List EdgePolicy) :
    (PolicyCache.installAll now policies (primaryNameOf policies)).authorizedClients =
      primaryClients policies := by
  cases hname : primaryNameOf policies with
  | none =>
    simp [PolicyCache.authorizedClients, PolicyCache.snapshot, PolicyCache.installAll,
      PolicyCache.keepPrimary, primaryClients, effectivePrimary, hname]
  | some name =>
    obtain ⟨p, hp, hpname⟩ := exists_of_primaryNameOf hname
    obtain ⟨q, hq⟩ := exists_lastWith bundleName hp
    rw [hpname] at hq
    have hlookup := lookup_installAll now policies (some name) name
    rw [hq, Option.map_some] at hlookup
    have hkept : (PolicyCache.installAll now policies (some name)).primaryName = some name := by
      have hmem : name ∈ (PolicyCache.installAll now policies (some name)).snapshots := by
        rw [← AList.lookup_isSome, hlookup]
        rfl
      simpa [PolicyCache.installAll, PolicyCache.keepPrimary] using hmem
    have hsnap : (PolicyCache.installAll now policies (some name)).snapshot =
        some (snapshotOf now q) := by
      simpa [PolicyCache.snapshot, hkept] using hlookup
    simp only [PolicyCache.authorizedClients, hsnap, primaryClients, effectivePrimary, hname,
      Option.bind_some, hq]
    rfl

variable {wire : BodyWire} {g : Gateway} {now : Rat} {stateDir : Path} {env : DiskEnv}
  {c : PolicyCache}

/-- A multi-policy sync that succeeds on a plural body has swapped its policies in. -/
theorem syncOnceMulti_cache {payload : Json} (hbody : httpGet g.plural = .ok payload)
    {policies : List EdgePolicy} {primaryName : Option Str} {clients : List AuthorizedClient}
    (hparse : parsePlural wire payload = .ok (policies, primaryName, clients)) :
    (syncOnceMulti wire g now stateDir env c).cache =
      PolicyCache.installAll now policies primaryName := by
  have hfetch : fetchAll wire g = .ok (policies, primaryName, clients) := by
    simp only [fetchAll, hbody, hparse]
  simp only [syncOnceMulti, hfetch]
  exact swapped_cache _ _

/-- A singular sync that succeeds has swapped the fetched policy in. -/
theorem syncOnceSingular_cache {p : EdgePolicy} (hfetch : fetch wire g = .ok p) :
    (syncOnceSingular wire g now stateDir env c).cache = PolicyCache.install now p := by
  simp only [syncOnceSingular, hfetch]
  exact swapped_cache _ _

/-! ## When the hoisted clients survive -/

/-- After a multi-policy sync the cache `multi` serves every client of a list,
and a token request that authenticates one of them against `single`, a cache
that got the same list with a singular payload, does so against `multi`. -/
structure KeepsClients (hash : HashLib) (clients : List AuthorizedClient)
    (multi single : PolicyCache) : Prop where
  served : ∀ client ∈ clients, client ∈ multi.authorizedClients
  authenticates : ∀ client ∈ clients, ∀ req : TokenRequest, req.clientId = client.clientId →
    authenticated hash single req = .ok client → authenticated hash multi req = .ok client

/-- A client of the list that some secret authenticates. -/
def CanAuthenticate (hash : HashLib) (clients : List AuthorizedClient)
    (client : AuthorizedClient) : Prop :=
  findAuthorizedClient client.clientId clients = some client ∧
    ∃ secret, verifyDjangoPbkdf2 hash secret client.clientSecretHash = .ok true

theorem keepsClients_iff {hash : HashLib} {clients : List AuthorizedClient}
    {multi single : PolicyCache} (hsingle : single.authorizedClients = clients) :
    KeepsClients hash clients multi single ↔
      ∀ client ∈ clients, client ∈ multi.authorizedClients ∧
        (CanAuthenticate hash clients client →
          findAuthorizedClient client.clientId multi.authorizedClients = some client) := by
  constructor
  · intro h client hc
    refine ⟨h.served client hc, ?_⟩
    intro hcan
    obtain ⟨hfind, secret, hverify⟩ := hcan
    let req : TokenRequest :=
      { grantType := [], clientId := client.clientId, clientSecret := secret }
    have hauth : authenticated hash single req = .ok client :=
      authenticated_ok_iff.mpr ⟨by rw [hsingle]; exact hfind, hverify⟩
    exact (authenticated_ok_iff.mp (h.authenticates client hc req rfl hauth)).1
  · intro h
    refine ⟨fun client hc => (h client hc).1, fun client hc req hid hauth => ?_⟩
    obtain ⟨hfind, hverify⟩ := authenticated_ok_iff.mp hauth
    rw [hsingle, hid] at hfind
    have hmulti := (h client hc).2 ⟨hfind, req.clientSecret, hverify⟩
    exact authenticated_ok_iff.mpr ⟨by rw [hid]; exact hmulti, hverify⟩

/-- **The hoisted clients** of a plural body survive a multi-policy sync, as they
would a singular one, exactly when the primary policy of the body lists each
of them too, and lists first, under the id of one that can authenticate, that
one. -/
theorem keeps_clients_iff {hash : HashLib} {payload : Json} {policies : List EdgePolicy}
    {primaryName : Option Str} {clients : List AuthorizedClient} {g' : Gateway}
    {single : EdgePolicy} {now' : Rat} {stateDir' : Path} {env' : DiskEnv} {c' : PolicyCache}
    (hbody : httpGet g.plural = .ok payload)
    (hparse : parsePlural wire payload = .ok (policies, primaryName, clients))
    (hfetch : fetch wire g' = .ok single) (hclients : single.authorizedClients = clients) :
    KeepsClients hash clients (syncOnceMulti wire g now stateDir env c).cache
        (syncOnceSingular wire g' now' stateDir' env' c').cache ↔
      ∀ client ∈ clients, client ∈ primaryClients policies ∧
        (CanAuthenticate hash clients client →
          findAuthorizedClient client.clientId (primaryClients policies) = some client) := by
  rw [syncOnceMulti_cache hbody hparse, syncOnceSingular_cache hfetch, parsePlural_primary hparse]
  have hsingle : (PolicyCache.install now' single).authorizedClients = clients := by
    rw [authorizedClients_install, hclients]
  rw [keepsClients_iff hsingle, authorizedClients_installAll]

end Sync

/-! Bodies of one policy, the primary, with or without the client in it; the plural
body hoists the client. -/

def hasClients : Json := .obj [("authorized_clients", .arr [.null])]

/-- Bodies are told apart by whether they list clients. -/
def demoBodies : BodyWire where
  json := noWire.json
  validate := fun v => .ok
    { allowAll with
      authorizedClients :=
        if (v.field? "authorized_clients").isSome then [demoClient] else [] }
  dump := fun _ => .ok []
  validateClient := fun _ => .ok demoClient

def pluralBody (policy : Json) : Json :=
  .obj [("policies", .arr [policy]), ("authorized_clients", .arr [.null])]

def demoGateway (policy : Json) : Gateway where
  singular := .response 200 (.ok []) (.ok policy)
  plural := .response 200 (.ok []) (.ok (pluralBody policy))

def emptyEnv : DiskEnv where
  disk := .empty
  now := 0
  faults := []

/-- The client survives when the policy lists it too. -/
theorem keeps_clients_iff_listed :
    let sync := @syncOnceMulti asciiRuntime demoBodies (demoGateway hasClients) 1000 ["state"]
      emptyEnv {}
    let single := @syncOnceSingular asciiRuntime demoBodies (demoGateway hasClients) 1000 ["state"]
      emptyEnv {}
    @KeepsClients asciiRuntime demoHash [demoClient] sync.cache single.cache ↔
      ∀ client ∈ [demoClient], client ∈ primaryClients [allowAll] ∧
        (@CanAuthenticate asciiRuntime demoHash [demoClient] client →
          findAuthorizedClient client.clientId (primaryClients [allowAll]) = some client) :=
  @keeps_clients_iff asciiRuntime demoBodies (demoGateway hasClients) 1000 ["state"] emptyEnv {}
    demoHash (pluralBody hasClients) [allowAll] (some "demo") [demoClient]
    (demoGateway hasClients) allowAll 1000 ["state"] emptyEnv {} rfl rfl rfl rfl

/-- The client is hoisted, the sync succeeds, and the client is locked out. -/
theorem hoisted_client_dropped :
    let policy : EdgePolicy := { allowAll with authorizedClients := [] }
    let sync := @syncOnceMulti asciiRuntime demoBodies (demoGateway (.obj [])) 1000 ["state"]
      emptyEnv {}
    let single := @syncOnceSingular asciiRuntime demoBodies (demoGateway hasClients) 1000 ["state"]
      emptyEnv {}
    let reply := fun cache => statusOf (@issueToken asciiRuntime demoJwt demoHash
      (demoSettings .closed) .empty cache 1000 demoApp
      { grantType := "client_credentials", clientId := "client-1", clientSecret := "secret",
        scope := "govern:enforce" }).2
    parsePlural demoBodies (pluralBody (.obj [])) = .ok ([policy], some "demo", [demoClient]) ∧
      sync.ended = .returned true ∧ sync.cache.authorizedClients = [] ∧
      ¬ @KeepsClients asciiRuntime demoHash [demoClient] sync.cache single.cache ∧
      reply sync.cache = 401 ∧ reply single.cache = 200 := by
  intro policy sync single reply
  have hended : sync.ended = .returned true := by decide +kernel
  have hnone : sync.cache.authorizedClients = [] := by decide +kernel
  refine ⟨rfl, hended, hnone, ?_, by decide +kernel, by decide +kernel⟩
  intro h
  have hserved := @KeepsClients.served asciiRuntime _ _ _ _ h demoClient List.mem_cons_self
  rw [hnone] at hserved
  simp at hserved

end TrustModelEdge.Routes
