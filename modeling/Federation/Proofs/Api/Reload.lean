import Federation.Api
import Federation.Proofs.Gateway.Revisions

/-!
# Only a reload changes what is served

Of all requests that a service answers only one kind changes the published set and the
stored snapshot: a reload that is accepted (`Exchange.Reloads`).  It carries the secret of
the credential before that ends (`Request.Authorized`), and what it publishes is what the
configuration in the file compiles to, at the next revision.

`Exchange.outcome` says what one request can do; a `History` is a sequence of requests,
between which the store may begin or cease to refuse what is saved, keys may lapse and the
audit writer goes on.  Main statement: `Api.changes_of_history`.

At the last revision a reload breaks off: it is not answered, and nothing is saved.
-/

namespace Federation

/-! ### Authorization -/

theorem Text.afterPrefix?_eq_some_iff {p cs rest : List Char} :
  afterPrefix? p cs = some rest ↔ cs = p ++ rest
  := by
  induction p generalizing cs with
  | nil => simp [afterPrefix?]
  | cons c p ih =>
    cases cs with
    | nil => simp [afterPrefix?]
    | cons c' cs =>
      rw [afterPrefix?]
      split
      · rename_i heq
        rw [ih, heq, List.cons_append, List.cons.injEq, and_iff_right rfl]
      · rename_i hne
        simp [Ne.symm hne]

theorem Credential.verify_eq_ok_iff {c : Credential} {presented : String} {now : Instant} :
  c.verify presented .reload now = .ok ()
    ↔ Sha256.digest (Utf8.encode presented) = c.digest ∧ ¬ c.expiresAt ≤ now
  := by
  have hscope : CredentialScope.reload = c.scope := by cases c.scope; rfl
  rw [verify, isExpired]
  by_cases hdigest : Sha256.digest (Utf8.encode presented) = c.digest
  · by_cases hexpired : c.expiresAt ≤ now
    · simp [hdigest, hexpired, ← hscope]
    · simp [hdigest, hexpired, ← hscope]
  · simp [hdigest]

namespace Request

theorem bearer?_eq_some_iff {r : Request} {secret : String} :
  r.bearer? = some secret
    ↔ ∃ s, r.header? "authorization" = some ("Bearer " ++ s)
      ∧ Text.trim s.toList ≠ [] ∧ Text.trimmed s = secret
  := by
  simp only [bearer?, Option.bind_eq_bind, Option.bind_eq_some_iff, Text.afterPrefix?_eq_some_iff]
  constructor
  · rintro ⟨value, hvalue, rest, hrest, h⟩
    split at h
    · cases h
    · rename_i hne
      have hbearer : value = "Bearer " ++ String.ofList rest := by
        apply String.toList_inj.mp
        rw [hrest, String.toList_append]
        exact congrArg _ (String.toList_ofList).symm
      refine ⟨String.ofList rest, hbearer ▸ hvalue, ?_, ?_⟩
      · simpa [String.toList_ofList] using hne
      · rw [Text.trimmed, String.toList_ofList]
        apply Option.some.inj h
  · rintro ⟨s, hvalue, hne, rfl⟩
    refine ⟨_, hvalue, s.toList, String.toList_append, ?_⟩
    rw [if_neg (by simpa using hne), Text.trimmed]

/-- A request carries the secret of a credential that has not ended: what its authorization
gives after the word for a bearer, without the blanks around it. -/
structure Authorized (r : Request) (c : Credential) (now : Instant) : Prop where
  secret : ∃ s, r.header? "authorization" = some ("Bearer " ++ s) ∧ Text.trim s.toList ≠ []
    ∧ Sha256.digest (Utf8.encode (Text.trimmed s)) = c.digest
  not_ended : ¬ c.expiresAt ≤ now

end Request

namespace Service

variable {σ : Type}

theorem gateway_record (v : Service σ) (now : Instant) (o : CallOptions)
    (r : Except Interruption Decision) :
  (v.record now o r).1.gateway = v.gateway
  := by cases r <;> rfl

/-- To evaluate a token is to fetch keys, as far as the gateway of a service goes. -/
theorem exists_gateway_evaluateRaw (v : Service σ) (web : Keys.Web) (now : Instant)
    (o : CallOptions) (raw : String) :
  ∃ keys, (v.evaluateRaw web now o raw).1.gateway = { v.gateway with keys := keys }
  := ⟨_, gateway_record _ now o _⟩

end Service

namespace Api

variable {σ : Type} {a : Api σ}

/-- A service has the credential whose secret a request carries. -/
def Authorizes (a : Api σ) (r : Request) (now : Instant) : Prop :=
  ∃ c, a.credential = some c ∧ r.Authorized c now

theorem authorizes_of_authorize {now : Instant} {r : Request} (h : a.authorize now r = .ok ()) :
  a.Authorizes r now
  := by
  rw [authorize] at h
  split at h
  · cases h
  · rename_i c hc
    split at h
    · cases h
    · rename_i secret hsecret
      obtain ⟨s, hs, hne, rfl⟩ := Request.bearer?_eq_some_iff.mp hsecret
      obtain ⟨hdigest, hended⟩ := Credential.verify_eq_ok_iff.mp (mapError_eq_ok_iff.mp h)
      exact ⟨c, hc, ⟨s, hs, hne, hdigest⟩, hended⟩

theorem of_configuration {w : Surroundings} {config : Config} (h : a.configuration w = .ok config) :
  ∃ path, a.configPath = some path ∧ Config.load path (w.files path) w.env = .ok config
  := by
  rw [configuration] at h
  split at h
  · cases h
  · rename_i path hpath
    exact ⟨path, hpath, mapError_eq_ok_iff.mp h⟩

/-- The published set. -/
def snapshot (a : Api σ) : BindingSet := a.service.gateway.snapshot

/-- The store of the snapshot. -/
def store (a : Api σ) : σ := a.service.gateway.store

/-- The stored snapshot. -/
def stored [SnapshotStore σ] (a : Api σ) : Except StorageError (Option PersistedSnapshot) :=
  SnapshotStore.load a.store

/-- The service with another gateway. -/
def withGateway (a : Api σ) (g : Gateway σ) : Api σ :=
  { a with service := { a.service with gateway := g } }

/-- One service publishes what another does, and is reloaded in the same way. -/
structure Continues (a a' : Api σ) : Prop where
  credential : a'.credential = a.credential
  configPath : a'.configPath = a.configPath
  snapshot : a'.snapshot = a.snapshot

theorem Continues.refl (a : Api σ) :
  a.Continues a
  := ⟨rfl, rfl, rfl⟩

/-! ### Routes -/

variable [SnapshotStore σ]

/-- What a request to reload can come to. -/
inductive ReloadsTo (a : Api σ) (w : Surroundings) (r : Request) :
    Option Response × Api σ → Prop where
  /-- It is refused. -/
  | refused (e : ApiError) : ReloadsTo a w r (some e.response, a)
  /-- It breaks off. -/
  | brokenOff : ReloadsTo a w r (none, a)
  /-- The set that the configuration in the file compiles to is saved and published. -/
  | published {path : String} {config : Config} {domain : Domain} {s : BindingSet} {store : σ}
      (hauthorized : a.Authorizes r w.now) (hpath : a.configPath = some path)
      (hload : Config.load path (w.files path) w.env = .ok config)
      (hdomain : config.domain = .ok domain)
      (hcompile : domain.compileAt (a.snapshot.revision + 1) = .ok s)
      (hsave : SnapshotStore.save a.store (.ofSet s w.now) = .ok store)
      (hlimit : a.snapshot.revision.toNat + 1 < 2 ^ 64) :
    ReloadsTo a w r (some (.json 200 (Api.published s)), a.withGateway { a.service.gateway with
      published := ⟨s⟩, store := store, keys := a.service.gateway.keys.forget })

theorem reloadsTo (a : Api σ) (w : Surroundings) (r : Request) :
  a.ReloadsTo w r (a.reload w r)
  := by
  rw [reload]
  cases hauthorize : a.authorize w.now r with
  | error e => apply ReloadsTo.refused e
  | ok _ =>
    have hauthorized := authorizes_of_authorize hauthorize
    cases hconfiguration : a.configuration w with
    | error e => apply ReloadsTo.refused e
    | ok config =>
      obtain ⟨path, hpath, hload⟩ := of_configuration hconfiguration
      obtain ⟨e, hreload⟩ | ⟨domain, s, store, hdomain, hlimit, hcompile, hsave, hreload⟩ :=
        a.service.gateway.reload_cases config w.now
      · simp only [Service.reload, hreload]
        cases e with
        | failed e => apply ReloadsTo.refused
        | overflow => apply ReloadsTo.brokenOff
      · simp only [Service.reload, hreload]
        apply ReloadsTo.published hauthorized hpath hload hdomain hcompile hsave hlimit

theorem ofPath?_eq_reload_iff {path : String} :
  Route.ofPath? path = some .reload ↔ path = "/v1/admin/reload"
  := by
  constructor
  · intro h
    obtain ⟨before, after, hroutes, -⟩ := List.lookup_eq_some_iff.mp h
    have hmem : (path, Route.reload) ∈ before ++ (path, .reload) :: after :=
      List.mem_append_right before List.mem_cons_self
    simpa [← hroutes] using hmem
  · rintro rfl
    rfl

/-- A request on another route leaves the published set and the store as they are. -/
theorem onRoute_of_ne_reload {route : Route} (h : route ≠ .reload) (a : Api σ) (w : Surroundings)
    (r : Request) :
  a.Continues (a.onRoute w r route).2 ∧ (a.onRoute w r route).2.store = a.store
  := by
  cases route with
  | reload => contradiction
  | evaluate =>
    rw [onRoute, evaluate]
    split
    · exact ⟨.refl a, rfl⟩
    · rename_i q _
      obtain ⟨keys, hgateway⟩ := a.service.exists_gateway_evaluateRaw w.web w.now
        ⟨a.allowed q, q.requestedTtl, false⟩ q.token
      refine ⟨⟨rfl, rfl, ?_⟩, ?_⟩
      · exact (congrArg Gateway.snapshot hgateway).trans rfl
      · exact (congrArg Gateway.store hgateway).trans rfl
  | _ => exact ⟨.refl a, rfl⟩

theorem respond_of_reload {a : Api σ} {w : Surroundings} {r : Request} (hmethod : r.method = "POST")
    (hpath : r.path = "/v1/admin/reload") :
  a.respond w r = a.reload w r
  := by
  have hroute : Route.ofPath? r.path = some .reload := ofPath?_eq_reload_iff.mpr hpath
  have hbody : withoutBody r = id := by
    funext response
    simp [withoutBody, hmethod]
  rw [respond, hroute, hmethod, hbody]
  simp [Route.accepts, Route.isPosted, onRoute]

/-- A request other than one to reload leaves the published set and the store as they are. -/
theorem respond_of_not_reload {r : Request}
    (h : ¬ (r.method = "POST" ∧ r.path = "/v1/admin/reload")) (a : Api σ) (w : Surroundings) :
  a.Continues (a.respond w r).2 ∧ (a.respond w r).2.store = a.store
  := by
  rw [respond]
  split
  · exact ⟨.refl a, rfl⟩
  · split
    · exact ⟨.refl a, rfl⟩
    · rename_i route hroute
      split
      · rename_i haccepts
        have hne : route ≠ .reload := by
          rintro rfl
          apply h
          exact ⟨by simpa [Route.accepts, Route.isPosted] using haccepts,
            ofPath?_eq_reload_iff.mp hroute⟩
        apply onRoute_of_ne_reload hne a w r
      · exact ⟨.refl a, rfl⟩

end Api

theorem ApiError.status_ne_ok (e : ApiError) :
  e.status ≠ 200
  := by cases e <;> simp [status]

/-! ### One request -/

/-- A request that a service answers. -/
structure Exchange (σ : Type) where
  /-- The service before it. -/
  before : Api σ
  surroundings : Surroundings
  request : Request

namespace Exchange

variable {σ : Type} [SnapshotStore σ]

/-- The answer, if there is one. -/
def response (e : Exchange σ) : Option Response := (e.before.respond e.surroundings e.request).1

/-- The service after it. -/
def after (e : Exchange σ) : Api σ := (e.before.respond e.surroundings e.request).2

/-- The request is made to reload. -/
def AsksToReload (e : Exchange σ) : Prop :=
  e.request.method = "POST" ∧ e.request.path = "/v1/admin/reload"

/-- The request is a reload that is accepted. -/
def Reloads (e : Exchange σ) : Prop :=
  e.AsksToReload ∧ e.response.map Response.status = some 200

/-- The set that the configuration in the file compiles to, at the next revision, is saved
and published. -/
structure Publishes (e : Exchange σ) : Prop where
  credential : e.after.credential = e.before.credential
  configPath : e.after.configPath = e.before.configPath
  compiled : ∃ path config domain, e.before.configPath = some path
    ∧ Config.load path (e.surroundings.files path) e.surroundings.env = .ok config
    ∧ config.domain = .ok domain
    ∧ domain.compileAt (e.before.snapshot.revision + 1) = .ok e.after.snapshot
  next : e.before.snapshot.revision.toNat + 1 < 2 ^ 64
  saved : SnapshotStore.save e.before.store (.ofSet e.after.snapshot e.surroundings.now)
    = .ok e.after.store

/-- What a request can do. -/
inductive Outcome (e : Exchange σ) : Prop where
  /-- The published set and the store stay as they are. -/
  | kept (hrefused : ¬ e.Reloads) (hcontinues : e.before.Continues e.after)
      (hstore : e.after.store = e.before.store)
  /-- An accepted reload publishes a set. -/
  | published (hreloads : e.Reloads)
      (hauthorized : e.before.Authorizes e.request e.surroundings.now) (hpublishes : e.Publishes)

/-- What is answered with an error is no accepted reload. -/
theorem not_reloads_of_error {e : Exchange σ} {error : ApiError}
    (h : e.response = some error.response) :
  ¬ e.Reloads
  := by
  intro hreloads
  have hstatus := hreloads.2
  rw [h, Option.map_some, Option.some.injEq] at hstatus
  apply error.status_ne_ok hstatus

theorem outcome (e : Exchange σ) :
  e.Outcome
  := by
  by_cases hasks : e.AsksToReload
  · have hrespond : e.before.respond e.surroundings e.request
        = e.before.reload e.surroundings e.request :=
      Api.respond_of_reload hasks.1 hasks.2
    obtain ⟨x, hx, hresponse, hafter⟩ : ∃ x, e.before.ReloadsTo e.surroundings e.request x
        ∧ e.response = x.1 ∧ e.after = x.2 :=
      ⟨_, e.before.reloadsTo _ _, congrArg Prod.fst hrespond, congrArg Prod.snd hrespond⟩
    cases hx with
    | refused error =>
      apply Outcome.kept (not_reloads_of_error hresponse)
      · rw [hafter]
        apply Api.Continues.refl
      · rw [hafter]
    | brokenOff =>
      have hrefused : ¬ e.Reloads := by
        intro hreloads
        have hstatus := hreloads.2
        rw [hresponse] at hstatus
        cases hstatus
      apply Outcome.kept hrefused
      · rw [hafter]
        apply Api.Continues.refl
      · rw [hafter]
    | @published path config domain s store hauthorized hpath hload hdomain hcompile hsave hlimit =>
      apply Outcome.published ⟨hasks, congrArg (Option.map Response.status) hresponse⟩ hauthorized
      constructor
      · rw [hafter]
        rfl
      · rw [hafter]
        rfl
      · rw [hafter]
        use path, config, domain, hpath, hload, hdomain, hcompile
      · apply hlimit
      · rw [hafter]
        apply hsave
  · obtain ⟨hcontinues, hstore⟩ := Api.respond_of_not_reload hasks e.before e.surroundings
    apply Outcome.kept (fun h => hasks h.1) hcontinues hstore

end Exchange

/-! ### Sequences of requests -/

namespace Api

variable {σ : Type} [SnapshotStore σ]

/-- The requests that a service has answered since it was `start`, in order, and the service
then.  In between the store may begin or cease to refuse what is saved, keys may lapse, and
the audit writer may go on. -/
inductive History (start : Api σ) : List (Exchange σ) → Api σ → Prop where
  | start : History start [] start
  | answer {l : List (Exchange σ)} {a : Api σ} (h : History start l a) (w : Surroundings)
      (r : Request) :
    History start (l ++ [⟨a, w, r⟩]) (Exchange.mk a w r).after
  | pass {l : List (Exchange σ)} {a a' : Api σ} (h : History start l a)
      (hcontinues : a.Continues a') (hstored : a'.stored = a.stored) :
    History start l a'

namespace History

variable {start a : Api σ} {l : List (Exchange σ)}

/-- The credential and the configuration file stay the same. -/
theorem rules_eq (h : History start l a) :
  (a.credential = start.credential ∧ a.configPath = start.configPath)
    ∧ ∀ e ∈ l, e.before.credential = start.credential ∧ e.before.configPath = start.configPath
  := by
  induction h with
  | start => simp
  | @answer l a h w r ih =>
    obtain ⟨⟨hcredential, hpath⟩, hall⟩ := ih
    have hrules : (Exchange.mk a w r).after.credential = a.credential
        ∧ (Exchange.mk a w r).after.configPath = a.configPath := by
      cases (Exchange.mk a w r).outcome with
      | kept _ hcontinues => exact ⟨hcontinues.credential, hcontinues.configPath⟩
      | published _ _ hpublishes => exact ⟨hpublishes.credential, hpublishes.configPath⟩
    refine ⟨⟨hrules.1.trans hcredential, hrules.2.trans hpath⟩, ?_⟩
    apply List.forall_mem_append.mpr ⟨hall, List.forall_mem_singleton.mpr ⟨hcredential, hpath⟩⟩
  | pass h hcontinues hstored ih =>
    exact ⟨⟨hcontinues.credential.trans ih.1.1, hcontinues.configPath.trans ih.1.2⟩, ih.2⟩

/-- Without an accepted reload the published set stays the same, and so does the stored
snapshot. -/
theorem unchanged (h : History start l a) (hl : ∀ e ∈ l, ¬ e.Reloads) :
  a.snapshot = start.snapshot ∧ a.stored = start.stored
  := by
  induction h with
  | start => exact ⟨rfl, rfl⟩
  | @answer l a h w r ih =>
    obtain ⟨hbefore, hlast⟩ := List.forall_mem_append.mp hl
    obtain ⟨hsnapshot, hstored⟩ := ih hbefore
    cases (Exchange.mk a w r).outcome with
    | kept _ hcontinues hstore =>
      refine ⟨hcontinues.snapshot.trans hsnapshot, ?_⟩
      rw [stored, hstore]
      apply hstored
    | published hreloads => exact absurd hreloads (hlast _ List.mem_cons_self)
  | pass h hcontinues hkept ih =>
    obtain ⟨hsnapshot, hstored⟩ := ih hl
    exact ⟨hcontinues.snapshot.trans hsnapshot, hkept.trans hstored⟩

end History

/-- Of all requests in whatever order only the accepted reloads change the published set and
the stored snapshot.  Such a request carried the secret of the credential before that ended;
it published what the configuration in the file compiled to, at the next revision, and this is
what is stored.  Any other request leaves both as they were, and so does a sequence of
others. -/
theorem changes_of_history [LawfulStore σ] {start a : Api σ} {l : List (Exchange σ)}
    (h : History start l a) :
  (∀ e ∈ l, e.Reloads →
      (∃ c, start.credential = some c ∧ e.request.Authorized c e.surroundings.now)
      ∧ (∃ path config domain, start.configPath = some path
        ∧ Config.load path (e.surroundings.files path) e.surroundings.env = .ok config
        ∧ config.domain = .ok domain
        ∧ domain.compileAt (e.before.snapshot.revision + 1) = .ok e.after.snapshot)
      ∧ e.after.snapshot.revision.toNat = e.before.snapshot.revision.toNat + 1
      ∧ e.after.stored = .ok (some (.ofSet e.after.snapshot e.surroundings.now)))
    ∧ (∀ e ∈ l, ¬ e.Reloads →
      e.after.snapshot = e.before.snapshot ∧ e.after.store = e.before.store)
    ∧ ((∀ e ∈ l, ¬ e.Reloads) → a.snapshot = start.snapshot ∧ a.stored = start.stored)
  := by
  refine ⟨?_, ?_, h.unchanged⟩
  · intro e he hreloads
    obtain ⟨hcredential, hpath⟩ := h.rules_eq.2 e he
    cases e.outcome with
    | kept hrefused => contradiction
    | published _ hauthorized hpublishes =>
      obtain ⟨path, config, domain, hp, hload, hdomain, hcompile⟩ := hpublishes.compiled
      refine ⟨hcredential ▸ hauthorized,
        ⟨path, config, domain, hpath ▸ hp, hload, hdomain, hcompile⟩, ?_, ?_⟩
      · rw [revision_of_compileAt hcompile, toNat_add_one hpublishes.next]
      · apply LawfulStore.load_of_save_ofSet hpublishes.saved
  · intro e he hrefused
    cases e.outcome with
    | kept _ hcontinues hstore => exact ⟨hcontinues.snapshot, hstore⟩
    | published hreloads => contradiction

end Api

/-! ### Two reloads -/

namespace Sample

/-- A credential that ends after an hour, and its secret. -/
def minted : Credential × String := Credential.mint (List.replicate 32 7) .reload .epoch 3600

/-- The service of a gateway, with the credential. -/
def apiOf {σ : Type} (g : Gateway σ) : Api σ where
  service := { gateway := g, audit := { writer := .resume [] } }
  credential := some minted.1
  configPath := some "trustbind.toml"
  deadlineMillis := 2000

/-- A configuration that declares nothing. -/
def configText : String := "[state]\ndir = \"kept\"\n"

/-- The beginning of 1970, with the configuration in its file. -/
def surroundings : Surroundings where
  now := .epoch
  web := fun _ => .unreachable
  files := fun path => if path = "trustbind.toml" then some configText else none
  env := fun _ => none

def reloadRequest (headers : List (String × String)) : Request where
  method := "POST"
  target := "/v1/admin/reload"
  headers := headers

/-- A reload without the secret. -/
def refused : Exchange (SwitchedStore SnapshotFile) :=
  ⟨apiOf gateway, surroundings, reloadRequest []⟩

/-- A reload with the secret after it. -/
def accepted : Exchange (SwitchedStore SnapshotFile) :=
  ⟨refused.after, surroundings, reloadRequest [("Authorization", "Bearer " ++ minted.2)]⟩

theorem history_accepted :
  Api.History (apiOf gateway) [refused, accepted] accepted.after
  := .answer (.answer .start surroundings (reloadRequest [])) surroundings _

end Sample

theorem Api.changes_of_history_sample :
  (¬ Sample.refused.Reloads ∧ Sample.refused.after.snapshot = Sample.refused.before.snapshot)
    ∧ Sample.accepted.Reloads
    ∧ (∃ c, (Sample.apiOf Sample.gateway).credential = some c
      ∧ Sample.accepted.request.Authorized c .epoch)
    ∧ Sample.accepted.after.snapshot.revision.toNat
      = Sample.accepted.before.snapshot.revision.toNat + 1
    ∧ Sample.accepted.after.stored = .ok (some (.ofSet Sample.accepted.after.snapshot .epoch))
  := by
  obtain ⟨haccepted, hrefused, -⟩ := changes_of_history Sample.history_accepted
  have hno : ¬ Sample.refused.Reloads := by
    intro h
    have hstatus : Sample.refused.response.map Response.status = some 401 := by decide +kernel
    rw [h.2] at hstatus
    cases hstatus
  have hyes : Sample.accepted.Reloads := ⟨⟨rfl, by decide +kernel⟩, by decide +kernel⟩
  obtain ⟨hauthorized, -, hrevision, hstored⟩ := haccepted Sample.accepted (by simp) hyes
  exact ⟨⟨hno, (hrefused Sample.refused (by simp) hno).1⟩, hyes, hauthorized, hrevision, hstored⟩

end Federation
