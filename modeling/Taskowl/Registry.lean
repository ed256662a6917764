import Taskowl.AutomationStore
import Taskowl.Lib.Lookup
import Taskowl.RunLog

/-!
# The automations as a document store

What a client of the automation API knows is what the replies told it: a
successful create, update, toggle or seeding returns the definition it leaves,
a successful delete takes one away. `docsOf` folds a transcript of calls and
replies into the documents so known. `get_automation` and `list_automations`
answer from the table; over every history they answer exactly these documents.
-/

namespace Taskowl

open Lib Py

/-! ## The two reads -/

/-- `get_automation(automation_id)`. -/
def getAutomation (id : Nat) (db : Db) : OpReply :=
  match db.automations.get? id with
  | none => .error s!"Automation not found: {id}"
  | some automation => .ok (.obj (serialize automation))

/-- `list_automations(enabled)` over the `automations` rows in scan order. -/
def listAutomations (enabled : Option Bool) (scan : List (Row Automation)) : List Dict :=
  let selected := match enabled with
    | none => scan
    | some enabled => scan.filter (·.val.enabled == enabled)
  (orderBy (fun a => a.id) selected).map serialize

/-! ## The documents a transcript tells of -/

/-- A document for each id that has one. -/
abbrev Docs := Nat → Option Dict

def docId (doc : Dict) : Option Nat :=
  match doc.get "id" with
  | .int id => some id.toNat
  | _ => none

def Docs.put (docs : Docs) : Json → Docs
  | .obj doc => match docId doc with
    | some id => Function.update docs id (some doc)
    | none => docs
  | _ => docs

/-- A call and its reply; a call that fails changes nothing. -/
def Docs.note (docs : Docs) : SystemOp × Option (Except PyErr OpReply) → Docs
  | (.delete id, some (.ok (.ok _))) => Function.update docs id none
  | (.seed _, some (.ok (.ok (.arr created)))) => created.foldl Docs.put docs
  | (_, some (.ok (.ok doc))) => docs.put doc
  | _ => docs

def transcript (s : System) : List SystemOp → List (SystemOp × Option (Except PyErr OpReply))
  | [] => []
  | op :: ops => (op, s.reply op) :: transcript (s.step op) ops

/-- The documents a history's replies tell of, from an empty store. -/
def docsOf (ops : List SystemOp) : Docs :=
  run Docs.note (fun _ => none) (transcript .empty ops)

def Docs.Of (docs : Docs) (t : Table Automation) : Prop := ∀ id, docs id = (t.get? id).map serialize

section Puts

variable {docs : Docs} {t t' : Table Automation}

theorem put_serialize (docs : Docs) (a : Row Automation) :
    docs.put (.obj (serialize a)) = Function.update docs a.id (some (serialize a)) := rfl

theorem Docs.Of.insert (h : docs.Of t) (now : Int) (a : Automation) :
    (docs.put (.obj (serialize ⟨t.nextId, now, a⟩))).Of (t.insert now a) := by
  intro id
  rw [put_serialize, Table.get?_insert, Function.update_apply]
  split
  · rfl
  · exact h id

theorem Docs.Of.modify (h : docs.Of t) {id : Nat} {a : Row Automation} (ha : t.get? id = some a)
    (new : Automation) :
    (docs.put (.obj (serialize { a with val := new }))).Of (t.modify id fun _ => new) := by
  obtain ⟨-, rfl⟩ := Table.get?_eq_some.mp ha
  intro id
  rw [put_serialize, Table.get?_modify, Function.update_apply]
  by_cases hid : id = a.id
  · rw [if_pos hid, hid, ha]
    simp
  · rw [if_neg hid, h id]
    simp [hid]

theorem Docs.Of.delete (h : docs.Of t) (id : Nat) :
    Docs.Of (Function.update docs id none) (t.deleteWhere (·.id == id)) := by
  intro i
  rw [Table.get?_deleteWhere_id, Function.update_apply]
  split
  · rfl
  · exact h i

theorem Docs.Of.ensureAll (h : docs.Of t) {now : Int} {ds : List Definition}
    (hok : Taskowl.ensureAll now t ds = .ok t') : ∃ new, t'.rows = t.rows ++ new ∧
      Docs.Of ((new.map fun a => Json.obj (serialize a)).foldl Docs.put docs) t' := by
  induction ds generalizing t docs with
  | nil =>
    cases hok
    exact ⟨[], (List.append_nil _).symm, h⟩
  | cons d ds ih =>
    obtain ⟨t₁, ht₁, hrest⟩ := ensureAll_cons_ok hok
    rcases ensureAutomation_cases ht₁ with ⟨-, rfl⟩ | ⟨-, -, rfl⟩
    · exact ih h hrest
    · obtain ⟨new, hrows, hdocs⟩ := ih (h.insert now (d.automation now)) hrest
      refine ⟨⟨t.nextId, now, d.automation now⟩ :: new, ?_, hdocs⟩
      rw [hrows, Table.rows_insert, List.append_assoc, List.singleton_append]

end Puts

/-! ## One operation -/

section Steps

variable {docs : Docs} {s : System}

theorem docs_create (h : docs.Of s.db.automations) (env : Env) (data : Dict) :
    (docs.note (.create env data, s.reply (.create env data))).Of
      (s.step (.create env data)).db.automations := by
  have hreply : s.reply (.create env data) = some (createAutomation env.now data s.db).2 := rfl
  show (docs.note (_, s.reply (.create env data))).Of
    (createAutomation env.now data s.db).1.automations
  rw [hreply]
  unfold createAutomation
  split
  · exact h
  · split
    · exact h
    · split
      · exact h
      · split
        · exact h
        · split
          · exact h
          · exact h.insert _ _

theorem docs_update (h : docs.Of s.db.automations) (env : Env) (id : Nat) (data : Dict) :
    (docs.note (.update env id data, s.reply (.update env id data))).Of
      (s.step (.update env id data)).db.automations := by
  have hreply : s.reply (.update env id data) =
      some (updateAutomation env.now id data s.db).2 := rfl
  show (docs.note (_, s.reply (.update env id data))).Of
    (updateAutomation env.now id data s.db).1.automations
  rw [hreply]
  unfold updateAutomation
  dsimp only
  split
  · exact h
  · split
    · exact h
    · next a ha =>
      split
      · exact h
      · split
        · exact h
        · split
          · exact h
          · exact h.modify ha _

theorem docs_toggle (h : docs.Of s.db.automations) (env : Env) (id : Nat) :
    (docs.note (.toggle env id, s.reply (.toggle env id))).Of
      (s.step (.toggle env id)).db.automations := by
  have hreply : s.reply (.toggle env id) = some (toggleAutomation env.now id s.db).2 := rfl
  show (docs.note (_, s.reply (.toggle env id))).Of
    (toggleAutomation env.now id s.db).1.automations
  rw [hreply]
  unfold toggleAutomation
  split
  · exact h
  · next a ha => exact h.modify ha _

theorem docs_delete (h : docs.Of s.db.automations) (id : Nat) :
    (docs.note (.delete id, s.reply (.delete id))).Of (s.step (.delete id)).db.automations := by
  have hreply : s.reply (.delete id) = some (deleteAutomation id s.db).2 := rfl
  show (docs.note (_, s.reply (.delete id))).Of (deleteAutomation id s.db).1.automations
  rw [hreply]
  unfold deleteAutomation
  split
  · exact h
  · exact h.delete id

theorem docs_seed (h : docs.Of s.db.automations) (env : Env) :
    (docs.note (.seed env, s.reply (.seed env))).Of (s.step (.seed env)).db.automations := by
  have hreply : s.reply (.seed env) =
      some (seedBuiltinAutomations env.settings env.now s.db).2 := rfl
  show (docs.note (_, s.reply (.seed env))).Of
    (seedBuiltinAutomations env.settings env.now s.db).1.automations
  rw [hreply]
  unfold seedBuiltinAutomations
  split
  · exact h
  · next t hok =>
    obtain ⟨new, hrows, hdocs⟩ := h.ensureAll hok
    show Docs.Of (((t.rows.drop s.db.automations.rows.length).map fun a =>
      Json.obj (serialize a)).foldl Docs.put docs) t
    rw [hrows, List.drop_left]
    exact hdocs

end Steps

/-- The replies keep telling of the table, whatever the operation. -/
theorem docs_step {docs : Docs} {s : System} (op : SystemOp) (h : docs.Of s.db.automations) :
    (docs.note (op, s.reply op)).Of (s.step op).db.automations := by
  cases op with
  | deliver env scan event =>
    show docs.Of (s.handle env scan event).system.db.automations
    unfold System.handle
    split
    · exact h
    · split
      · exact h
      · next hrun =>
        rw [← Handler.automations_run hrun] at h
        exact h
  | tick env scan => exact h
  | create env data => exact docs_create h env data
  | update env id data => exact docs_update h env id data
  | delete id => exact docs_delete h id
  | toggle env id => exact docs_toggle h env id
  | seed env => exact docs_seed h env
  | prune events runs =>
    show docs.Of (s.db.prune events runs).automations
    unfold Db.prune
    cases events <;> cases runs <;> exact h

theorem docs_run {docs : Docs} {s : System} (h : docs.Of s.db.automations) (ops : List SystemOp) :
    (run Docs.note docs (transcript s ops)).Of (run System.step s ops).db.automations := by
  induction ops generalizing docs s with
  | nil => exact h
  | cons op ops ih => exact ih (docs_step op h)

theorem docsOf_run (ops : List SystemOp) :
    (docsOf ops).Of (run System.step .empty ops).db.automations := by
  have hempty : Docs.Of (fun _ => none) System.empty.db.automations := fun _ => rfl
  exact docs_run hempty ops

/-! ## What the table goes through -/

/-- One statement of an operation on the `automations` table. -/
inductive Edit (t : Table Automation) : Table Automation → Prop
  | insert {now : Int} {a : Automation} (hfresh : a.name ∉ t.vals.map (·.name)) :
    Edit t (t.insert now a)
  | modify {id : Nat} {new : Automation}
      (hfree : ∀ b ∈ t.rows, b.id ≠ id → b.val.name ≠ new.name) :
    Edit t (t.modify id fun _ => new)
  | delete (id : Nat) : Edit t (t.deleteWhere (·.id == id))

abbrev Edited := Relation.ReflTransGen Edit

def NamesUnique (t : Table Automation) : Prop :=
  ∀ a ∈ t.rows, ∀ b ∈ t.rows, a.val.name = b.val.name → a.id = b.id

section Edits

variable {t t' : Table Automation}

theorem Edit.namesUnique (h : Edit t t') (hnames : NamesUnique t) : NamesUnique t' := by
  cases h with
  | @insert now a hfresh =>
    have hnew : ∀ b ∈ t.rows, b.val.name ≠ a.name := fun b hb heq =>
      hfresh (List.mem_map.mpr ⟨b.val, List.mem_map_of_mem hb, heq⟩)
    intro b hb c hc heq
    rcases List.mem_append.mp hb with hb | hb <;> rcases List.mem_append.mp hc with hc | hc
    · exact hnames b hb c hc heq
    · rw [List.mem_singleton.mp hc] at heq
      exact absurd heq (hnew b hb)
    · rw [List.mem_singleton.mp hb] at heq
      exact absurd heq.symm (hnew c hc)
    · rw [List.mem_singleton.mp hb, List.mem_singleton.mp hc]
  | @modify id new hfree =>
    intro b hb c hc heq
    obtain ⟨b, hbt, rfl⟩ := List.mem_map.mp hb
    obtain ⟨c, hct, rfl⟩ := List.mem_map.mp hc
    by_cases hbid : b.id = id <;> by_cases hcid : c.id = id
    · rw [if_pos hbid, if_pos hcid]
      exact hbid.trans hcid.symm
    · rw [if_pos hbid, if_neg hcid] at heq
      exact absurd heq.symm (hfree c hct hcid)
    · rw [if_neg hbid, if_pos hcid] at heq
      exact absurd heq (hfree b hbt hbid)
    · rw [if_neg hbid, if_neg hcid] at heq ⊢
      exact hnames b hbt c hct heq
  | delete id =>
    intro b hb c hc
    exact hnames b (List.mem_of_mem_filter hb) c (List.mem_of_mem_filter hc)

theorem Edit.nextId_le (h : Edit t t') : t.nextId ≤ t'.nextId := by
  cases h with
  | insert hfresh => exact Nat.le_succ _
  | modify hfree => exact Nat.le_refl _
  | delete id => exact Nat.le_refl _

theorem Edited.namesUnique (h : Edited t t') (hnames : NamesUnique t) : NamesUnique t' := by
  induction h with
  | refl => exact hnames
  | tail _ hedit ih => exact hedit.namesUnique ih

theorem Edited.nextId_le (h : Edited t t') : t.nextId ≤ t'.nextId := by
  induction h with
  | refl => exact Nat.le_refl _
  | tail _ hedit ih => exact ih.trans hedit.nextId_le

theorem edited_create (now : Int) (data : Dict) (db : Db) :
    Edited db.automations (createAutomation now data db).1.automations := by
  unfold createAutomation
  split
  · exact .refl
  · split
    · exact .refl
    · split
      · exact .refl
      · next name hname =>
        split
        · exact .refl
        · next hfresh =>
          split
          · exact .refl
          · next a ha =>
            have hsame : name = a.name := by
              rw [(bindNew_spec ha).2] at hname
              cases hname
              rfl
            exact .single (.insert (hsame ▸ hfresh))

theorem edited_update (now : Int) (id : Nat) (data : Dict) (db : Db) :
    Edited db.automations (updateAutomation now id data db).1.automations := by
  rcases updateAutomation_cases now id data db with hsame | ⟨a, new, -, -, -, hfree, hmodify⟩
  · rw [hsame]
  · rw [hmodify]
    refine .single (.modify fun b hb hid => ?_)
    rw [name_touch]
    exact hfree b hb hid

theorem edited_toggle {db : Db} (hnames : NamesUnique db.automations) (now : Int) (id : Nat) :
    Edited db.automations (toggleAutomation now id db).1.automations := by
  unfold toggleAutomation
  split
  · exact .refl
  · next a ha =>
    obtain ⟨hmem, rfl⟩ := Table.get?_eq_some.mp ha
    exact .single (.modify fun b hb hid heq => hid (hnames b hb a hmem heq))

theorem edited_delete (id : Nat) (db : Db) :
    Edited db.automations (deleteAutomation id db).1.automations := by
  unfold deleteAutomation
  split
  · exact .refl
  · exact .single (.delete id)

theorem edited_ensureAll {now : Int} {ds : List Definition} (hok : ensureAll now t ds = .ok t') :
    Edited t t' := by
  induction ds generalizing t with
  | nil =>
    cases hok
    exact .refl
  | cons d ds ih =>
    obtain ⟨t₁, ht₁, hrest⟩ := ensureAll_cons_ok hok
    rcases ensureAutomation_cases ht₁ with ⟨-, rfl⟩ | ⟨hfresh, -, rfl⟩
    · exact ih hrest
    · exact .head (.insert hfresh) (ih hrest)

end Edits

theorem edited_step {s : System} (hnames : NamesUnique s.db.automations) (op : SystemOp) :
    Edited s.db.automations (s.step op).db.automations := by
  cases op with
  | deliver env scan event =>
    show Edited _ (s.handle env scan event).system.db.automations
    rw [automations_handle]
  | tick env scan => exact .refl
  | create env data => exact edited_create env.now data s.db
  | update env id data => exact edited_update env.now id data s.db
  | delete id => exact edited_delete id s.db
  | toggle env id => exact edited_toggle hnames env.now id
  | seed env =>
    show Edited _ (seedBuiltinAutomations env.settings env.now s.db).1.automations
    unfold seedBuiltinAutomations
    split
    · exact .refl
    · next hok => exact edited_ensureAll hok
  | prune events runs =>
    show Edited _ (s.db.prune events runs).automations
    unfold Db.prune
    cases events <;> cases runs <;> exact .refl

theorem namesUnique_run (ops : List SystemOp) :
    NamesUnique (run System.step .empty ops).db.automations :=
  run_invariant (I := fun s : System => NamesUnique s.db.automations)
    (fun _ op h => (edited_step h op).namesUnique h) ops fun _ ha => absurd ha List.not_mem_nil

/-- Ids are given out in order, over the whole history. -/
theorem nextId_run_le (before after : List SystemOp) :
    (run System.step .empty before).db.automations.nextId ≤
      (run System.step .empty (before ++ after)).db.automations.nextId := by
  induction after using List.reverseRecOn with
  | nil => rw [List.append_nil]
  | append_singleton after op ih =>
    rw [← List.append_assoc, run_append]
    exact ih.trans (edited_step (namesUnique_run _) op).nextId_le

/-! ## What a client sees -/

/-- The API serves the documents that the replies told of. -/
structure Served (ops : List SystemOp) : Prop where
  /-- `get_automation` returns the document of its id. -/
  get : ∀ id, getAutomation id (run System.step .empty ops).db = match docsOf ops id with
    | none => .error s!"Automation not found: {id}"
    | some doc => .ok (.obj doc)
  /-- `list_automations` returns the documents in id order, those of the asked state. -/
  list : ∀ enabled (scan : Scan), ∃ ids : List Nat, ids.Pairwise (· < ·) ∧
    (∀ id, id ∈ ids ↔ (docsOf ops id).isSome) ∧
    listAutomations enabled (scan.order (run System.step .empty ops).db.automations.rows) =
      (ids.filterMap (docsOf ops)).filter fun doc =>
        enabled.all fun state => decide (doc.get "enabled" = .bool state)
  /-- No two documents have one name. -/
  names : ∀ id id' doc doc', docsOf ops id = some doc → docsOf ops id' = some doc' →
    doc.get "name" = doc'.get "name" → id = id'
  /-- A new document has an id that no document ever had. -/
  fresh : ∀ env data doc,
    (run System.step .empty ops).reply (.create env data) = some (.ok (.ok (.obj doc))) →
    ∃ id, docId doc = some id ∧ ∀ before after, ops = before ++ after → docsOf before id = none

section Serving

variable {docs : Docs} {t : Table Automation}

theorem list_of_docs (h : docs.Of t) (enabled : Option Bool) (scan : Scan) :
    listAutomations enabled (scan.order t.rows) =
      ((t.rows.map (·.id)).filterMap docs).filter fun doc =>
        enabled.all fun state => decide (doc.get "enabled" = .bool state) := by
  have hdocs : (t.rows.map (·.id)).filterMap docs = t.rows.map serialize := by
    have hlookup : ∀ id ∈ t.rows.map (·.id), docs id = (t.get? id).map serialize :=
      fun id _ => h id
    rw [List.filterMap_congr hlookup, ← List.map_filterMap, Table.filterMap_get?]
  have hsorted : ∀ p : Row Automation → Bool,
      orderBy (fun a => a.id) ((scan.order t.rows).filter p) = t.rows.filter p := by
    intro p
    have hinj : ∀ a ∈ t.rows.filter p, ∀ b ∈ t.rows.filter p, (a.id : Int) = b.id → a = b :=
      fun a ha b hb heq => t.eq_of_id_eq (List.mem_of_mem_filter ha) (List.mem_of_mem_filter hb)
        (Int.ofNat.inj heq)
    rw [← orderBy_eq_of_perm ((scan.perm t.rows).filter p).symm hinj]
    exact List.Pairwise.insertionSort_eq ((t.sorted.filter p).imp fun hlt =>
      Int.ofNat_le.mpr (Nat.le_of_lt hlt))
  unfold listAutomations
  rw [hdocs, List.filter_map]
  cases enabled with
  | none =>
    have hall := hsorted fun _ => true
    rw [List.filter_true, List.filter_true] at hall
    dsimp only
    rw [hall]
    simp
  | some state =>
    dsimp only
    rw [hsorted]
    congr 1
    apply List.filter_congr
    intro a _
    show (a.val.enabled == state) = decide (Json.bool a.val.enabled = .bool state)
    cases a.val.enabled <;> cases state <;> rfl

theorem row_of_doc (h : docs.Of t) {id : Nat} {doc : Dict} (hdoc : docs id = some doc) :
    ∃ a ∈ t.rows, a.id = id ∧ doc = serialize a := by
  rw [h id, Option.map_eq_some_iff] at hdoc
  obtain ⟨a, ha, rfl⟩ := hdoc
  obtain ⟨hmem, hid⟩ := Table.get?_eq_some.mp ha
  exact ⟨a, hmem, hid, rfl⟩

theorem doc_of_create {now : Int} {data doc : Dict} {db : Db}
    (h : (createAutomation now data db).2 = .ok (.ok (.obj doc))) :
    docId doc = some db.automations.nextId := by
  unfold createAutomation at h
  split at h
  · cases h
  · split at h
    · cases h
    · split at h
      · cases h
      · split at h
        · cases h
        · split at h
          · cases h
          · cases h
            rfl

end Serving

/-- Over every history the API serves what its replies told, under names and ids of their own. -/
theorem documents_served (ops : List SystemOp) : Served ops where
  get id := by
    unfold getAutomation
    rw [docsOf_run ops id]
    cases (run System.step .empty ops).db.automations.get? id with
    | none => rfl
    | some a => rfl
  list enabled scan := by
    have hdocs := docsOf_run ops
    refine ⟨_, Table.ids_pairwise _, fun id => ?_, list_of_docs hdocs enabled scan⟩
    rw [hdocs id, Option.isSome_map, List.mem_map]
    constructor
    · rintro ⟨a, ha, rfl⟩
      rw [Table.get?_eq_some.mpr ⟨ha, rfl⟩]
      rfl
    · intro hsome
      obtain ⟨a, ha⟩ := Option.isSome_iff_exists.mp hsome
      exact ⟨a, Table.get?_eq_some.mp ha⟩
  names id id' doc doc' hdoc hdoc' hname := by
    obtain ⟨a, ha, rfl, rfl⟩ := row_of_doc (docsOf_run ops) hdoc
    obtain ⟨b, hb, rfl, rfl⟩ := row_of_doc (docsOf_run ops) hdoc'
    exact namesUnique_run ops a ha b hb (Json.str.inj hname)
  fresh env data doc hreply := by
    refine ⟨_, doc_of_create (Option.some.inj hreply), fun before after heq => ?_⟩
    rw [docsOf_run before, Table.get?_of_bound]
    · rfl
    · rw [heq]
      exact nextId_run_le before after

end Taskowl
