import Taskowl.Lib.Purge
import Taskowl.Gateway

/-!
# The two doors

Clients come in through the REST API, where `verify_api_key` stands before each
route but three, or through the MCP server, where `AuthMiddleware` stands
before every call and a tool call goes on to the REST API with the server's own
key (`auth.py`). What the operations do is a parameter here, and so is what
FastAPI answers by itself. With a key set, clients without it are as good as
absent: no run of theirs, in between the others' calls, changes the state or an
answer that another client gets (`doors_guard`).
-/

namespace Taskowl

open Lib Py

/-! ## The two checks -/

/-- `verify_api_key`; an error is the detail of a 401. -/
def verifyApiKey (apiKey credentials : Option String) : Except String Unit :=
  match apiKey.filter (· ≠ "") with
  | none => .ok ()
  | some key => match credentials with
    | none => .error "Missing authentication credentials"
    | some token => if token ≠ key then .error "Invalid API key" else .ok ()

/-- `AuthMiddleware.dispatch` before `call_next`; an error is the detail of a 401. -/
def authMiddleware (apiKey authorization : Option String) : Except String Unit :=
  match apiKey.filter (· ≠ "") with
  | none => .ok ()
  | some key => match authorization with
    | none => .error "Missing authentication credentials"
    | some header =>
      if ¬ "Bearer ".toList <+: header.toList then .error "Invalid authorization scheme"
      else if String.ofList (header.toList.drop 7) ≠ key then .error "Invalid API key"
      else .ok ()

/-! ## The service -/

abbrev RouteResult (ρ : Type) := Except (Nat × String) ρ

/-- The answer to a REST request. -/
inductive Response (ρ : Type) where
  | noRoute
  | unauthorized (detail : String)
  | invalid
  | result (r : RouteResult ρ)
  deriving Repr

inductive ClientReply (ρ : Type) where
  | response (r : Response ρ)
  /-- The 401 of `AuthMiddleware`. -/
  | refused (detail : String)
  | noTool
  /-- `response.json()` -/
  | json (body : ρ)
  /-- `response.raise_for_status()` raised. -/
  | raised (r : Response ρ)
  deriving Repr

/-- A REST request, or a call of the tool of an operation with its `Authorization` header. -/
inductive Arrival where
  | rest (r : HttpRequest)
  | mcp (authorization : Option String) (op : Operation)
  deriving DecidableEq, Repr

/-- The settings, and what the operations do. -/
structure Service (σ ρ : Type) where
  framework : Framework
  apiKey : Option String
  /-- What FastAPI answers before it calls the dependencies of a route: its documentation pages, and
  a 422 to a body that is no JSON. -/
  early : HttpRequest → Option (Response ρ)
  perform : Operation → σ → σ × RouteResult ρ

namespace Service

variable {σ ρ : Type} (S : Service σ ρ)

/-- What the API does with a request: the dependency `verify_api_key` fails before the arguments
are looked at. -/
def handle (r : HttpRequest) (s : σ) : σ × Response ρ :=
  match S.early r with
  | some answer => (s, answer)
  | none => match findRoute r.method (S.framework.segments r.url) routes with
    | none => (s, .noRoute)
    | some (route, params) =>
      match if route.isPublic then .ok () else
          verifyApiKey S.apiKey (S.framework.bearer r.authorization) with
      | .error detail => (s, .unauthorized detail)
      | .ok () => match route.call S.framework params r with
        | none => (s, .invalid)
        | some op => ((S.perform op s).1, .result (S.perform op s).2)

/-- What a tool makes of the answer. -/
def toolReply : Response ρ → ClientReply ρ
  | .result (.ok body) => .json body
  | r => .raised r

def step : Arrival → σ → σ × ClientReply ρ
  | .rest r, s => ((S.handle r s).1, .response (S.handle r s).2)
  | .mcp authorization op, s => match authMiddleware S.apiKey authorization with
    | .error detail => (s, .refused detail)
    | .ok () => match op.request S.apiKey with
      | none => (s, .noTool)
      | some r => ((S.handle r s).1, toolReply (S.handle r s).2)

end Service

/-- The arrival shows the key, as its door reads it. -/
def Arrival.shows (f : Framework) (key : String) : Arrival → Bool
  | .rest r => f.bearer r.authorization = some key
  | .mcp authorization _ => authorization = some ("Bearer " ++ key)

/-! ## What the checks let through -/

section Checks

variable {key : String}

theorem filter_key (hkey : key ≠ "") : (some key).filter (· ≠ "") = some key := by
  simp [hkey]

theorem verifyApiKey_ok_iff (hkey : key ≠ "") (credentials : Option String) :
    verifyApiKey (some key) credentials = .ok () ↔ credentials = some key := by
  unfold verifyApiKey
  rw [filter_key hkey]
  cases credentials with
  | none => simp
  | some token => by_cases h : token = key <;> simp [h]

theorem authMiddleware_ok_iff (hkey : key ≠ "") (authorization : Option String) :
    authMiddleware (some key) authorization = .ok () ↔
      authorization = some ("Bearer " ++ key) := by
  unfold authMiddleware
  rw [filter_key hkey]
  cases authorization with
  | none => simp
  | some header =>
    simp only [Option.some.injEq]
    constructor
    · intro h
      split_ifs at h with hprefix htoken
      simp only [not_not] at hprefix htoken
      obtain ⟨rest, hrest⟩ := hprefix
      rw [← hrest] at htoken
      rw [← String.toList_inj, ← hrest, ← htoken]
      simp
    · rintro rfl
      simp

/-- The header that the tools send passes the check of the API, if it is read back as the key. -/
theorem verifyApiKey_getHeaders (f : Framework) (hkey : key ≠ "")
    (hbearer : f.bearer (some ("Bearer " ++ key)) = some key) :
    verifyApiKey (some key) (f.bearer (getHeaders (some key))) = .ok () := by
  rw [verifyApiKey_ok_iff hkey, getHeaders, filter_key hkey, Option.map_some, hbearer]

end Checks

/-! ## What a route performs -/

theorem mem_of_findRoute {method : Method} {segments : List String} {rs : List Route}
    {route : Route} {params : List String}
    (h : findRoute method segments rs = some (route, params)) : route ∈ rs := by
  induction rs with
  | nil => simp at h
  | cons head rest ih =>
    rw [findRoute] at h
    split at h
    · exact List.mem_cons_of_mem _ (ih h)
    · split_ifs at h
      · simp_all
      · exact List.mem_cons_of_mem _ (ih h)

def Calls (isPublic : Bool) (call : Framework → List String → HttpRequest → Option Operation) :
    Prop :=
  ∀ f params r op, call f params r = some op → op.isPublic = isPublic

theorem calls_some {isPublic : Bool} {op : Framework → List String → HttpRequest → Operation}
    (hop : ∀ f params r, (op f params r).isPublic = isPublic) :
    Calls isPublic fun f params r => some (op f params r) := by
  intro f params r op' h
  cases h
  exact hop f params r

theorem calls_map {α : Type} {isPublic : Bool}
    {g : Framework → List String → HttpRequest → Option α} {op : α → Operation}
    (hop : ∀ a, (op a).isPublic = isPublic) :
    Calls isPublic fun f params r => (g f params r).map op := by
  intro f params r op' h
  obtain ⟨a, -, rfl⟩ := Option.map_eq_some_iff.mp h
  exact hop a

theorem calls_withParam {isPublic : Bool} {g : Framework → String → HttpRequest → Option Operation}
    (hg : ∀ arg, Calls isPublic fun f _ r => g f arg r) : Calls isPublic (withParam g) := by
  intro f params r op h
  unfold withParam at h
  split at h
  · exact hg _ _ [] _ _ h
  · cases h

theorem calls_withId {isPublic : Bool} {g : Framework → Int → HttpRequest → Option Operation}
    (hg : ∀ id, Calls isPublic fun f _ r => g f id r) : Calls isPublic (withId g) := by
  refine calls_withParam fun arg f params r op h => ?_
  obtain ⟨id, -, h⟩ := Option.bind_eq_some_iff.mp h
  exact hg id f params r op h

theorem calls_taskRoutes : ∀ route ∈ taskRoutes, Calls route.isPublic route.call := by
  simp only [taskRoutes, List.forall_mem_cons]
  exact ⟨calls_map fun _ => rfl, calls_map fun _ => rfl, calls_map fun _ => rfl,
    calls_map fun _ => rfl, calls_withParam fun _ => calls_some fun _ _ _ => rfl,
    calls_withParam fun _ => calls_some fun _ _ _ => rfl,
    calls_withParam fun _ => calls_some fun _ _ _ => rfl, calls_some fun _ _ _ => rfl,
    calls_withParam fun _ => calls_map fun _ => rfl,
    calls_withParam fun _ => calls_some fun _ _ _ => rfl, calls_map fun _ => rfl, by simp⟩

theorem calls_workerRoutes : ∀ route ∈ workerRoutes, Calls route.isPublic route.call := by
  simp only [workerRoutes, List.forall_mem_cons]
  exact ⟨calls_some fun _ _ _ => rfl, calls_withParam fun _ => calls_some fun _ _ _ => rfl,
    calls_withParam fun _ => calls_some fun _ _ _ => rfl,
    calls_withParam fun _ => calls_map fun _ => rfl,
    calls_withParam fun _ => calls_map fun _ => rfl, calls_some fun _ _ _ => rfl,
    calls_some fun _ _ _ => rfl, calls_some fun _ _ _ => rfl, calls_some fun _ _ _ => rfl, by simp⟩

theorem calls_automationRoutes : ∀ route ∈ automationRoutes, Calls route.isPublic route.call := by
  simp only [automationRoutes, List.forall_mem_cons]
  exact ⟨calls_map fun _ => rfl, calls_map fun _ => rfl,
    calls_withId fun _ => calls_some fun _ _ _ => rfl, calls_withId fun _ => calls_map fun _ => rfl,
    calls_withId fun _ => calls_some fun _ _ _ => rfl,
    calls_withId fun _ => calls_some fun _ _ _ => rfl, calls_withId fun _ => calls_map fun _ => rfl,
    calls_withId fun _ => calls_some fun _ _ _ => rfl, by simp⟩

theorem calls_routes : ∀ route ∈ routes, Calls route.isPublic route.call := by
  simp only [routes, List.forall_mem_append, List.forall_mem_cons]
  have hpublic {op : Operation} (hop : op.isPublic = true) : Calls true fun _ _ _ => some op :=
    calls_some fun _ _ _ => hop
  exact ⟨⟨⟨⟨hpublic rfl, hpublic rfl, hpublic rfl, by simp⟩, calls_taskRoutes⟩,
    calls_workerRoutes⟩, calls_automationRoutes⟩

namespace Service

variable {σ ρ : Type} {S : Service σ ρ} {key : String}

theorem handle_of_dispatch {r : HttpRequest} {op : Operation} (hearly : S.early r = none)
    (hop : dispatch S.framework r = .call op)
    (hpass : verifyApiKey S.apiKey (S.framework.bearer r.authorization) = .ok ()) (s : σ) :
    S.handle r s = ((S.perform op s).1, .result (S.perform op s).2) := by
  unfold dispatch at hop
  unfold handle
  rw [hearly]
  dsimp only
  cases hroute : findRoute r.method (S.framework.segments r.url) routes with
  | none => simp [hroute] at hop
  | some found =>
    obtain ⟨route, params⟩ := found
    simp only [hroute] at hop ⊢
    cases hcall : route.call S.framework params r with
    | none => simp [hcall] at hop
    | some op' =>
      obtain rfl : op' = op := by simpa [hcall] using hop
      simp [hpass]

/-- What a request that may not pass can do. -/
inductive Barred (S : Service σ ρ) (s : σ) : σ × Response ρ → Prop
  /-- FastAPI's own answer. -/
  | early {r : HttpRequest} {answer : Response ρ} : S.early r = some answer → Barred S s (s, answer)
  | noRoute : Barred S s (s, .noRoute)
  | unauthorized (detail : String) : Barred S s (s, .unauthorized detail)
  /-- A route without a key, its arguments rejected. -/
  | invalid : Barred S s (s, .invalid)
  | unguarded {op : Operation} : op.isPublic = true →
      Barred S s ((S.perform op s).1, .result (S.perform op s).2)

theorem handle_barred {r : HttpRequest}
    (hfail : verifyApiKey S.apiKey (S.framework.bearer r.authorization) ≠ .ok ()) (s : σ) :
    Barred S s (S.handle r s) := by
  unfold handle
  split
  · rename_i hearly
    exact .early hearly
  · split
    · exact .noRoute
    · rename_i route params hroute
      split
      · exact .unauthorized _
      · rename_i hok
        have hpublic : route.isPublic = true := by
          by_contra hguarded
          rw [if_neg hguarded] at hok
          exact hfail hok
        split
        · exact .invalid
        · rename_i op hcall
          exact .unguarded
            ((calls_routes route (mem_of_findRoute hroute) _ _ _ _ hcall).trans hpublic)

theorem step_mcp (hkey : key ≠ "") (hset : S.apiKey = some key)
    (hbearer : S.framework.bearer (some ("Bearer " ++ key)) = some key) {op : Operation}
    (hop : op.isPublic = false) (hclean : ∀ arg ∈ op.pathArg, Clean arg)
    (hearly : ∀ r, op.request S.apiKey = some r → S.early r = none) (s : σ) :
    S.step (.mcp (some ("Bearer " ++ key)) op) s =
      ((S.perform op.landed s).1, toolReply (.result (S.perform op.landed s).2)) := by
  obtain ⟨r, hr⟩ := exists_request S.apiKey hop
  have hauth : authMiddleware S.apiKey (some ("Bearer " ++ key)) = .ok () := by
    rw [hset, authMiddleware_ok_iff hkey]
  have hsent : r.authorization = getHeaders S.apiKey := authorization_request hr
  have hpass : verifyApiKey S.apiKey (S.framework.bearer r.authorization) = .ok () := by
    rw [hsent, hset]
    exact verifyApiKey_getHeaders S.framework hkey hbearer
  have hhandle := handle_of_dispatch (S := S) (hearly r hr) (dispatch_request S.apiKey hr hclean)
    hpass s
  simp [step, hauth, hr, hhandle]

/-- What a client is told that does not show the key. -/
inductive Turned (S : Service σ ρ) (s : σ) : σ × ClientReply ρ → Prop
  | refused (detail : String) : Turned S s (s, .refused detail)
  | response {out : σ × Response ρ} : Barred S s out → Turned S s (out.1, .response out.2)

theorem step_turned (hkey : key ≠ "") (hset : S.apiKey = some key) {a : Arrival}
    (ha : a.shows S.framework key = false) (s : σ) : Turned S s (S.step a s) := by
  cases a with
  | rest r =>
    refine .response (handle_barred ?_ s)
    rw [hset, Ne, verifyApiKey_ok_iff hkey]
    simpa [Arrival.shows] using ha
  | mcp authorization op =>
    cases hauth : authMiddleware S.apiKey authorization with
    | error detail =>
      rw [step, hauth]
      exact .refused detail
    | ok =>
      rw [hset, authMiddleware_ok_iff hkey] at hauth
      simp [Arrival.shows, hauth] at ha

theorem Barred.state (hread : ∀ op, op.isPublic = true → ∀ s, (S.perform op s).1 = s) {s : σ}
    {out : σ × Response ρ} (h : Barred S s out) : out.1 = s := by
  cases h with
  | early | noRoute | unauthorized | invalid => rfl
  | unguarded hop => exact hread _ hop s

theorem Turned.state (hread : ∀ op, op.isPublic = true → ∀ s, (S.perform op s).1 = s) {s : σ}
    {out : σ × ClientReply ρ} (h : Turned S s out) : out.1 = s := by
  cases h with
  | refused detail => rfl
  | response hbarred => exact hbarred.state hread

/-- What holds of a run of both doors with a key set. -/
structure Guarded (S : Service σ ρ) (key : String) (arrivals : List Arrival) (s : σ) : Prop where
  /-- The state is that of the run of those who show the key. -/
  state : final S.step (arrivals.filter (·.shows S.framework key)) s = final S.step arrivals s
  /-- So are their answers. -/
  answers : outputs S.step (arrivals.filter (·.shows S.framework key)) s =
    (outputs S.step arrivals s).filter (·.1.shows S.framework key)
  /-- The others are turned away, but for the routes that anyone may read. -/
  turned : ∀ before a after, arrivals = before ++ a :: after → a.shows S.framework key = false →
    Turned S (final S.step before s) (S.step a (final S.step before s))
  /-- A tool does what the operation does that its request comes to, and the API never refuses it,
  where it reads the server's header as the key and FastAPI leaves the request to the routes. -/
  served : S.framework.bearer (some ("Bearer " ++ key)) = some key →
    ∀ before authorization op after, arrivals = before ++ .mcp authorization op :: after →
    Arrival.shows S.framework key (.mcp authorization op) = true → op.isPublic = false →
    (∀ arg ∈ op.pathArg, Clean arg) →
    (∀ r, op.request S.apiKey = some r → S.early r = none) →
    S.step (.mcp authorization op) (final S.step before s) =
      ((S.perform op.landed (final S.step before s)).1,
        toolReply (.result (S.perform op.landed (final S.step before s)).2))

end Service

/-- **The doors.** With a key set, and public routes that only read, what clients without the key
send changes nothing for the others, through either door; and a tool call with the key is the
operation that its request comes to. -/
theorem doors_guard {σ ρ : Type} (S : Service σ ρ) {key : String} (hkey : key ≠ "")
    (hset : S.apiKey = some key) (hread : ∀ op, op.isPublic = true → ∀ s, (S.perform op s).1 = s)
    (arrivals : List Arrival) (s : σ) : S.Guarded key arrivals s where
  state := final_filter (fun _ ha s => (Service.step_turned hkey hset ha s).state hread) arrivals s
  answers :=
    outputs_filter (fun _ ha s => (Service.step_turned hkey hset ha s).state hread) arrivals s
  turned before a after _ ha := Service.step_turned hkey hset ha _
  served hbearer before authorization op after _ hshows hop hclean hearly := by
    have hheader : authorization = some ("Bearer " ++ key) := by
      simpa [Arrival.shows] using hshows
    rw [hheader]
    exact Service.step_mcp hkey hset hbearer hop hclean hearly _

def counting : Service Nat Nat where
  framework := Framework.plain
  apiKey := some "k"
  early r :=
    if r.url = "/docs" then some (.result (.ok 0)) else if r.malformed then some .invalid else none
  perform op n := (if op.isPublic then n else n + 1, .ok n)

/-- A tool call with the key, between requests without it: one for the pages of FastAPI, one whose
body is no JSON, one for a route behind the key and one for a public route. -/
def visits : List Arrival := [
  .rest { method := .get, url := "/docs" },
  .rest { method := .post, url := "/api/tasks/execute", malformed := true },
  .mcp (some "Bearer k") .listQueues,
  .rest { method := .post, url := "/api/tasks/t/retry" },
  .rest { method := .get, url := "/health" }]

theorem doors_guard_counting : counting.Guarded "k" visits 0 ∧
    counting.step (.mcp (some "Bearer k") .listQueues) 0 = (1, .json 0) := by
  have hguarded := doors_guard counting (by decide) rfl
    (fun op hop s => by simp [counting, hop]) visits 0
  have hbearer : counting.framework.bearer (some ("Bearer " ++ "k")) = some "k" := by
    decide +kernel
  have hserved := hguarded.served hbearer (visits.take 2) (some "Bearer k") .listQueues
    (visits.drop 3) rfl (by decide +kernel) rfl nofun (fun r hr => by cases hr; decide +kernel)
  exact ⟨hguarded, hserved⟩

end Taskowl
