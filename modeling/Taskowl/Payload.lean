import Taskowl.Dispatch

/-!
# The default webhook payload

Two events that agree on the safe fields have one snapshot, and a path that
starts at a safe field resolves alike in both. The default payload is made of
safe values, but they are strings of the event, and the substitution runs over
them as over a payload of the action: it stays what it was made exactly when
no string of it refers to another field and the safe fields leave it alone.
-/

namespace Taskowl

open Py

/-! ## Safe fields -/

def SafeAgree (event event' : Dict) : Prop :=
  ∀ field ∈ safeFields, event.lookup field = event'.lookup field

instance (event event' : Dict) : Decidable (SafeAgree event event') :=
  inferInstanceAs (Decidable (∀ field ∈ safeFields, _))

def safePath (path : String) : Bool :=
  (Json.splitDots path).head?.any fun field => decide (field ∈ safeFields)

section SafeFields

variable {lib : PyLib} {event event' : Dict} {path : String}

theorem lookup_select (fields : List String) (event : Dict) (field : String) :
    (fields.filterMap fun f => (event.lookup f).map fun v => (f, v)).lookup field =
      if field ∈ fields then event.lookup field else none := by
  induction fields with
  | nil => rfl
  | cons f fields ih =>
    by_cases hf : field = f
    · subst hf
      cases hl : event.lookup field with
      | none =>
        rw [List.filterMap_cons_none (by rw [hl]; rfl), ih, hl]
        simp
      | some v => simp [hl]
    · have hmem : field ∈ f :: fields ↔ field ∈ fields := by simp [hf]
      cases hl : event.lookup f with
      | none => simp [hl, hmem, ih]
      | some v => simp [hl, hmem, ih, List.lookup_cons, beq_false_of_ne hf]

theorem lookup_safeSnapshot (event : Dict) (field : String) :
    (safeSnapshot event).lookup field =
      if field ∈ safeFields then event.lookup field else none :=
  lookup_select safeFields event field

theorem safeAgree_safeSnapshot (event : Dict) : SafeAgree event (safeSnapshot event) := by
  intro field hfield
  rw [lookup_safeSnapshot, if_pos hfield]

theorem SafeAgree.get (h : SafeAgree event event') {field : String} (hfield : field ∈ safeFields) :
    event.get field = event'.get field := by
  unfold Dict.get
  rw [h field hfield]

theorem SafeAgree.safeSnapshot (h : SafeAgree event event') :
    safeSnapshot event = safeSnapshot event' :=
  List.filterMap_congr fun field hfield => by rw [h field hfield]

theorem SafeAgree.resolveField (h : SafeAgree event event') (hpath : safePath path = true) :
    resolveField event path = resolveField event' path := by
  unfold safePath at hpath
  unfold Taskowl.resolveField
  cases hs : Json.splitDots path with
  | nil => rw [hs] at hpath; cases hpath
  | cons part parts =>
    rw [hs] at hpath
    have hpart : part ∈ safeFields := by simpa using hpath
    show resolveParts parts (event.get part) = resolveParts parts (event'.get part)
    rw [h.get hpart]

end SafeFields

/-! ## What a string refers to -/

/-- The paths that `_interpolate` substitutes in a text, from left to right. -/
def referenced (lib : PyLib) : Nat → List Char → List (List Char)
  | _, [] => []
  | skip + 1, _ :: cs => referenced lib skip cs
  | 0, c :: cs => match placeholder lib (c :: cs) with
    | some path => path :: referenced lib (path.length + 7) cs
    | none => referenced lib 0 cs

mutual

/-- The strings of a payload that `_interpolate` rewrites: its values, at any depth. -/
def strings : Json → List String
  | .str s => [s]
  | .arr xs => stringsList xs
  | .obj kvs => stringsObj kvs
  | .null => []
  | .bool _ => []
  | .int _ => []
  | .float _ => []
termination_by structural v => v

def stringsList : List Json → List String
  | [] => []
  | x :: xs => strings x ++ stringsList xs
termination_by structural xs => xs

def stringsObj : List (String × Json) → List String
  | [] => []
  | (_, x) :: xs => strings x ++ stringsObj xs
termination_by structural xs => xs

end

section Interpolation

variable {lib : PyLib} {event event' : Dict}

mutual

/-- A payload is left alone exactly when each of its strings is. -/
theorem interpolate_eq_self_iff (v : Json) :
    interpolate lib event v = v ↔ ∀ s ∈ strings v, interpolateStr lib event s = s := by
  cases v with
  | str s => simp [interpolate, strings]
  | arr xs => simpa [interpolate, strings] using interpolateList_eq_self_iff xs
  | obj kvs => simpa [interpolate, strings] using interpolateObj_eq_self_iff kvs
  | _ => simp [interpolate, strings]

theorem interpolateList_eq_self_iff (xs : List Json) :
    interpolateList lib event xs = xs ↔
      ∀ s ∈ stringsList xs, interpolateStr lib event s = s := by
  cases xs with
  | nil => simp [interpolateList, stringsList]
  | cons x xs =>
    simp only [interpolateList, stringsList, List.cons.injEq, List.forall_mem_append]
    rw [interpolate_eq_self_iff x, interpolateList_eq_self_iff xs]

theorem interpolateObj_eq_self_iff (kvs : List (String × Json)) :
    interpolateObj lib event kvs = kvs ↔
      ∀ s ∈ stringsObj kvs, interpolateStr lib event s = s := by
  cases kvs with
  | nil => simp [interpolateObj, stringsObj]
  | cons kv kvs =>
    obtain ⟨k, x⟩ := kv
    simp only [interpolateObj, stringsObj, List.cons.injEq, List.forall_mem_append, Prod.mk.injEq,
      true_and]
    rw [interpolate_eq_self_iff x, interpolateObj_eq_self_iff kvs]

end

theorem SafeAgree.interpolateChars (h : SafeAgree event event') (skip : Nat) (cs : List Char)
    (hsafe : ∀ path ∈ referenced lib skip cs, safePath (String.ofList path) = true) :
    interpolateChars lib event skip cs = interpolateChars lib event' skip cs := by
  fun_induction referenced lib skip cs with
  | case1 skip => rw [Taskowl.interpolateChars, Taskowl.interpolateChars]
  | case2 skip c cs ih => exact ih hsafe
  | case3 c cs path hp ih =>
    rw [List.forall_mem_cons] at hsafe
    rw [Taskowl.interpolateChars, Taskowl.interpolateChars, hp]
    dsimp only
    unfold substitute
    rw [h.resolveField hsafe.1, ih hsafe.2]
  | case4 c cs hp ih =>
    rw [Taskowl.interpolateChars, Taskowl.interpolateChars, hp]
    dsimp only
    rw [ih hsafe]

variable (lib event) in
theorem length_substitute_le {skip : Nat} {cs path : List Char}
    (hpath : path ∈ referenced lib skip cs) :
    (substitute lib event path).length ≤ (interpolateChars lib event skip cs).length := by
  fun_induction referenced lib skip cs with
  | case1 skip => cases hpath
  | case2 skip c cs ih => exact ih hpath
  | case3 c cs path' hp ih =>
    rw [Taskowl.interpolateChars, hp]
    dsimp only
    rw [List.length_append]
    rcases List.mem_cons.mp hpath with rfl | hpath
    · omega
    · have := ih hpath
      omega
  | case4 c cs hp ih =>
    rw [Taskowl.interpolateChars, hp]
    have := ih hpath
    simp only [List.length_cons]
    omega

end Interpolation

/-! ## Strings that other fields cannot reach -/

section Inert

variable {lib : PyLib} {event : Dict} {s : String}

/-- A string refers to safe fields only, and their values leave it as it is. -/
structure Inert (lib : PyLib) (event : Dict) (s : String) : Prop where
  safe : ∀ path ∈ referenced lib 0 s.toList, safePath (String.ofList path) = true
  unchanged : interpolateStr lib (safeSnapshot event) s = s

def nest : List String → Json → Json
  | [], value => value
  | part :: parts, value => .obj [(part, nest parts value)]

theorem resolveParts_nest (parts : List String) (value : Json) :
    resolveParts parts (nest parts value) = value := by
  induction parts with
  | nil => rfl
  | cons part parts ih => simp [nest, resolveParts, Dict.get, ih]

/-- Any path that does not start at a safe field leads to any string, for some event with the same
safe fields. -/
theorem exists_resolve_of_not_safePath (event : Dict) {path : String}
    (hpath : safePath path = false) (text : String) :
    ∃ event', SafeAgree event event' ∧ resolveField event' path = .str text := by
  unfold safePath at hpath
  cases hs : Json.splitDots path with
  | nil =>
    unfold Json.splitDots at hs
    exact absurd (List.map_eq_nil_iff.mp hs) (List.splitOn_ne_nil _ _)
  | cons part parts =>
    rw [hs] at hpath
    have hpart : part ∉ safeFields := by simpa using hpath
    refine ⟨safeSnapshot event ++ [(part, nest parts (.str text))], ?_, ?_⟩
    · intro field hfield
      have hne : field ≠ part := fun heq => hpart (heq ▸ hfield)
      rw [List.lookup_append, lookup_safeSnapshot, if_pos hfield]
      simp [List.lookup_cons, beq_false_of_ne hne]
    · unfold resolveField
      rw [hs]
      have hget : Dict.get (safeSnapshot event ++ [(part, nest parts (.str text))]) part =
          nest parts (.str text) := by
        unfold Dict.get
        rw [List.lookup_append, lookup_safeSnapshot, if_neg hpart]
        simp
      show resolveParts parts (Dict.get _ part) = _
      rw [hget]
      exact resolveParts_nest parts _

/-- A string is inert exactly when no event with the same safe fields changes it. -/
theorem inert_iff : Inert lib event s ↔
    ∀ event', SafeAgree event event' → interpolateStr lib event' s = s := by
  constructor
  · intro h event' hagree
    have hsame : SafeAgree (safeSnapshot event) event' := fun field hfield =>
      (safeAgree_safeSnapshot event field hfield).symm.trans (hagree field hfield)
    have hchars := hsame.interpolateChars 0 s.toList h.safe
    unfold interpolateStr
    rw [← hchars]
    exact h.unchanged
  · intro h
    refine ⟨fun path hpath => ?_, h _ (safeAgree_safeSnapshot event)⟩
    by_contra hunsafe
    rw [Bool.not_eq_true] at hunsafe
    obtain ⟨event', hagree, hresolve⟩ := exists_resolve_of_not_safePath event hunsafe
      (String.ofList (List.replicate (s.toList.length + 1) 'x'))
    have hlong : (substitute lib event' path).length = s.toList.length + 1 := by
      unfold substitute
      rw [hresolve]
      simp [Json.toStr]
    have hle := length_substitute_le lib event' hpath
    have hsame : (interpolateChars lib event' 0 s.toList) = s.toList := by
      have hstr := congrArg String.toList (h event' hagree)
      rwa [interpolateStr, String.toList_ofList] at hstr
    rw [hlong, hsame] at hle
    omega

end Inert

/-- The body of a webhook without a payload, as the audit log has it. -/
def metadata (automation : Automation) (event : Dict) : Json :=
  .obj [("automation", .str automation.name), ("event_type", event.get "type"),
    ("event", .obj (safeSnapshot event))]

theorem fireWebhook_default {lib : PyLib} {automation : Automation} {event action : Dict}
    (hurl : (action.get "url").truthy = true) (hpayload : (action.get "payload").truthy = false) :
    fireWebhook lib automation event action =
      .ok (.post (action.get "url") (interpolate lib event (metadata automation event))) := by
  simp [fireWebhook, hurl, Json.or, hpayload, metadata]

/-- For every event with these safe fields the default body is the metadata of the event, exactly
when every string of it is inert. -/
theorem default_payload_metadata (lib : PyLib) (automation : Automation) (event action : Dict)
    (hurl : (action.get "url").truthy = true) (hpayload : (action.get "payload").truthy = false) :
    (∀ event', SafeAgree event event' → fireWebhook lib automation event' action =
      .ok (.post (action.get "url") (metadata automation event))) ↔
    ∀ s ∈ strings (metadata automation event), Inert lib event s := by
  have hmeta : ∀ event', SafeAgree event event' →
      metadata automation event' = metadata automation event := by
    intro event' h
    unfold metadata
    rw [h.safeSnapshot, h.get (show "type" ∈ safeFields by decide)]
  have hsend : ∀ event', SafeAgree event event' →
      (fireWebhook lib automation event' action =
        .ok (.post (action.get "url") (metadata automation event)) ↔
      ∀ s ∈ strings (metadata automation event), interpolateStr lib event' s = s) := by
    intro event' h
    rw [fireWebhook_default hurl hpayload, hmeta event' h, ← interpolate_eq_self_iff]
    simp
  simp only [inert_iff]
  constructor
  · intro h s hs event' hagree
    exact (hsend event' hagree).mp (h event' hagree) s hs
  · intro h event' hagree
    exact (hsend event' hagree).mpr fun s hs => h s hs event' hagree

def hook : Automation :=
  { name := "hook", triggerType := "event", eventType := some "task-failed" }

def failedWith (exception result : String) : Dict :=
  [("type", .str "task-failed"), ("uuid", .str "7"), ("exception", .str exception),
    ("result", .str result)]

/-- A message that names the result brings it into the body. -/
theorem default_payload_leaks :
    SafeAgree (failedWith "\x7bevent.result\x7d" "secret") (failedWith "\x7bevent.result\x7d" "") ∧
      fireWebhook (Env.idle 0).lib hook (failedWith "\x7bevent.result\x7d" "secret")
          [("url", .str "http://hook")] =
        .ok (.post (.str "http://hook") (metadata hook (failedWith "secret" "secret"))) ∧
      fireWebhook (Env.idle 0).lib hook (failedWith "\x7bevent.result\x7d" "")
          [("url", .str "http://hook")] =
        .ok (.post (.str "http://hook") (metadata hook (failedWith "" ""))) := by
  decide +kernel

/-- A message that names a safe field the event does not have stays as it is. -/
theorem default_payload_metadata_failed :
    fireWebhook (Env.idle 0).lib hook (failedWith "\x7bevent.retries\x7d" "")
        [("url", .str "http://hook")] =
      .ok (.post (.str "http://hook")
        (metadata hook (failedWith "\x7bevent.retries\x7d" "secret"))) := by
  have hinert : ∀ s ∈ strings (metadata hook (failedWith "\x7bevent.retries\x7d" "secret")),
      (∀ path ∈ referenced (Env.idle 0).lib 0 s.toList, safePath (String.ofList path) = true) ∧
        interpolateStr (Env.idle 0).lib
          (safeSnapshot (failedWith "\x7bevent.retries\x7d" "secret")) s = s := by
    decide +kernel
  have hagree : SafeAgree (failedWith "\x7bevent.retries\x7d" "secret")
      (failedWith "\x7bevent.retries\x7d" "") := by decide +kernel
  exact (default_payload_metadata (Env.idle 0).lib hook
    (failedWith "\x7bevent.retries\x7d" "secret") [("url", .str "http://hook")] rfl rfl).mpr
      (fun s hs => ⟨(hinert s hs).1, (hinert s hs).2⟩) _ hagree

end Taskowl
