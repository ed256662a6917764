import Taskowl.AutomationStore

/-!
# Concurrent seedings

Each consumer seeds the built-in automations when it starts, and the API
creates automations meanwhile, each call in a transaction of its own. A call
sees the committed rows and its own. The unique index on the name covers the
uncommitted rows too: an INSERT of a name that another transaction holds waits
for that one to end, and one of a committed name raises.
-/

namespace Taskowl

open Lib Py

/-! ## Calls -/

inductive StoreCall where
  | seed (settings : Settings)
  | create (data : Dict)

/-- An INSERT to come, if its name is free: the row as the flush binds it. -/
structure Insertion where
  name : String
  row : Except PyErr Automation

/-- `_ensure(name, definition)`, up to the row. -/
def Definition.insertion (d : Definition) (now : Int) : Insertion where
  name := d.name
  row := (bindInt 31 (jsonOf .int d.scheduleSeconds)).map fun _ => d.automation now

/-- What a call inserts, in order, or its answer when it opens no transaction. -/
def StoreCall.insertions (now : Int) : StoreCall → Except (Except PyErr OpReply) (List Insertion)
  | .seed settings => .ok ((seedDefinitions settings).map (·.insertion now))
  | .create data => match validateAutomation data with
    | some error => .error (.ok (.error error))
    | none =>
      if !(data.get "name").truthy then .error (.ok (.error "name is required"))
      else match required (bindText (data.get "name")) with
        | .error e => .error (.error e)
        | .ok name => .ok [⟨name, bindNew now data⟩]

/-- Where a call stands. -/
structure Client where
  call : StoreCall
  /-- `now()` in its transaction. -/
  now : Int
  todo : List Insertion
  /-- The SELECT for the first of them found no row. -/
  checked : Bool := false
  reply : Option (Except PyErr OpReply) := none

def Client.start (now : Int) (call : StoreCall) : Client :=
  match call.insertions now with
  | .error reply => { call, now, todo := [], reply := some reply }
  | .ok todo => { call, now, todo }

/-- A row with the call that wrote it, until that one commits. -/
structure Tuple where
  val : Automation
  writer : Option Nat := none

abbrev Heap := Table Tuple

/-! ## Transactions on the heap -/

def Heap.visible (h : Heap) (i : Nat) : List String :=
  (h.vals.filter fun t => t.writer.isNone || t.writer == some i).map (·.val.name)

def Heap.committed (h : Heap) : List (Int × Automation) :=
  (h.rows.filter (·.val.writer.isNone)).map fun r => (r.createdAt, r.val.val)

def Heap.written (h : Heap) (i : Nat) : List (Row Automation) :=
  (h.rows.filter (·.val.writer == some i)).map fun r => ⟨r.id, r.createdAt, r.val.val⟩

def Heap.commit (h : Heap) (i : Nat) : Heap where
  rows := h.rows.map fun r =>
    if r.val.writer = some i then { r with val := { r.val with writer := none } } else r
  nextId := h.nextId
  sorted := by
    rw [List.pairwise_map]
    refine h.sorted.imp fun {a b} hlt => ?_
    split <;> split <;> exact hlt
  bound r hr := by
    obtain ⟨s, hs, rfl⟩ := List.mem_map.mp hr
    split <;> exact h.bound s hs

def Heap.rollback (h : Heap) (i : Nat) : Heap := h.deleteWhere (·.val.writer == some i)

def Heap.ofTable (t : Table Automation) : Heap where
  rows := t.rows.map fun r => ⟨r.id, r.createdAt, ⟨r.val, none⟩⟩
  nextId := t.nextId
  sorted := List.pairwise_map.mpr t.sorted
  bound r hr := by
    obtain ⟨s, hs, rfl⟩ := List.mem_map.mp hr
    exact t.bound s hs

/-! ## Interleavings -/

/-- The calls in flight, with those that committed, in that order. -/
structure Race where
  heap : Heap
  clients : List Client
  log : List (Int × StoreCall) := []

def Race.start (db : Db) (calls : List (Int × StoreCall)) : Race :=
  ⟨.ofTable db.automations, calls.map fun c => .start c.1 c.2, []⟩

def Race.put (s : Race) (i : Nat) (c : Client) : Race := { s with clients := s.clients.set i c }

def StoreCall.answer (rows : List (Row Automation)) : StoreCall → Json
  | .seed _ => .arr (rows.map fun r => .obj (serialize r))
  | .create _ => .obj ((rows.head?.map serialize).getD [])

def Race.commit (s : Race) (i : Nat) (c : Client) : Race :=
  { s.put i { c with reply := some (.ok (.ok (c.call.answer (s.heap.written i)))) } with
    heap := s.heap.commit i, log := s.log ++ [(c.now, c.call)] }

def Race.fail (s : Race) (i : Nat) (c : Client) (e : PyErr) : Race :=
  { s.put i { c with reply := some (.error e) } with heap := s.heap.rollback i }

/-- The SELECT by name. -/
def Race.select (s : Race) (i : Nat) (c : Client) (ins : Insertion) (todo : List Insertion) :
    Race :=
  if ins.name ∈ s.heap.visible i then match c.call with
    | .seed _ => s.put i { c with todo }
    | .create _ =>
      let error := s!"Automation with name '{ins.name}' already exists"
      s.put i { c with reply := some (.ok (.error error)) }
  else s.put i { c with checked := true }

def uniqueViolation : PyErr :=
  ⟨.integrityError, "duplicate key value violates unique constraint"⟩

/-- The flush of the INSERT. -/
def Race.flush (s : Race) (i : Nat) (c : Client) (ins : Insertion) (todo : List Insertion) :
    Race :=
  match ins.row with
  | .error e => s.fail i c e
  | .ok a => match s.heap.rows.find? (·.val.val.name == a.name) with
    | none => { s.put i { c with todo, checked := false } with
                heap := s.heap.insert c.now ⟨a, some i⟩ }
    | some r =>
      if r.val.writer = none ∨ r.val.writer = some i then s.fail i c uniqueViolation
      else s

/-- The call at an index runs to its next await; while its INSERT waits, nothing happens. -/
def Race.step (s : Race) (i : Nat) : Race :=
  match s.clients[i]? with
  | none => s
  | some c =>
    if c.reply.isSome then s
    else match c.todo with
      | [] => s.commit i c
      | ins :: todo => if c.checked then s.flush i c ins todo else s.select i c ins todo

theorem Race.step_of_none {s : Race} {i : Nat} (h : s.clients[i]? = none) : s.step i = s := by
  unfold step
  rw [h]

/-- A call on its own. -/
def serveCall (db : Db) (c : Int × StoreCall) : Db :=
  match c.2 with
  | .seed settings => (seedBuiltinAutomations settings c.1 db).1
  | .create data => (createAutomation c.1 data db).1

/-- What one step can do. -/
inductive Race.Move (s : Race) (i : Nat) (c : Client) : Race → Prop where
  | commit : c.todo = [] → Move s i c (s.commit i c)
  | skip {ins : Insertion} {todo : List Insertion} : c.todo = ins :: todo → c.checked = false →
      ins.name ∈ s.heap.visible i → (∃ settings, c.call = .seed settings) →
      Move s i c (s.put i { c with todo })
  | refuse {ins : Insertion} {todo : List Insertion} {error : String} : c.todo = ins :: todo →
      c.checked = false → ins.name ∈ s.heap.visible i → (∃ data, c.call = .create data) →
      Move s i c (s.put i { c with reply := some (.ok (.error error)) })
  | check {ins : Insertion} {todo : List Insertion} : c.todo = ins :: todo → c.checked = false →
      ins.name ∉ s.heap.visible i → Move s i c (s.put i { c with checked := true })
  | insert {ins : Insertion} {todo : List Insertion} {a : Automation} : c.todo = ins :: todo →
      c.checked = true → ins.row = .ok a → (∀ r ∈ s.heap.rows, r.val.val.name ≠ a.name) →
      Move s i c { s.put i { c with todo, checked := false } with
                   heap := s.heap.insert c.now ⟨a, some i⟩ }
  | raise {ins : Insertion} {todo : List Insertion} {e : PyErr} : c.todo = ins :: todo →
      c.checked = true → ins.row = .error e → Move s i c (s.fail i c e)
  | conflict {ins : Insertion} {todo : List Insertion} {a : Automation} {r : Row Tuple} :
      c.todo = ins :: todo → c.checked = true → ins.row = .ok a → r ∈ s.heap.rows →
      r.val.val.name = a.name → (r.val.writer = none ∨ r.val.writer = some i) →
      Move s i c (s.fail i c uniqueViolation)

/-- The INSERT of a call waits for the transaction that holds the name. -/
def Race.Blocked (s : Race) (i : Nat) (c : Client) : Prop :=
  ∃ ins todo a r j, c.todo = ins :: todo ∧ c.checked = true ∧ ins.row = .ok a ∧
    r ∈ s.heap.rows ∧ r.val.val.name = a.name ∧ r.val.writer = some j ∧ j ≠ i

theorem Race.step_cases {s : Race} {i : Nat} {c : Client} (hc : s.clients[i]? = some c) :
    (c.reply.isSome ∧ s.step i = s) ∨ (c.reply = none ∧ s.Blocked i c ∧ s.step i = s) ∨
      (c.reply = none ∧ s.Move i c (s.step i)) := by
  unfold Race.step
  rw [hc]
  dsimp only
  split
  · next hreply => exact .inl ⟨hreply, rfl⟩
  · next hreply =>
    have hnone : c.reply = none := by simpa using hreply
    right
    split
    · next htodo => exact .inr ⟨hnone, .commit htodo⟩
    · next ins todo htodo =>
      split
      · next hchecked =>
        unfold Race.flush
        split
        · next e he => exact .inr ⟨hnone, .raise htodo hchecked he⟩
        · next a ha =>
          split
          · next hfree =>
            refine .inr ⟨hnone, .insert htodo hchecked ha fun r hr hname => ?_⟩
            simpa [hname] using List.find?_eq_none.mp hfree r hr
          · next r hfound =>
            have hr := List.mem_of_find?_eq_some hfound
            have hname : r.val.val.name = a.name := by simpa using List.find?_some hfound
            split
            · next hwriter =>
              exact .inr ⟨hnone, .conflict htodo hchecked ha hr hname hwriter⟩
            · next hwriter =>
              rw [not_or] at hwriter
              obtain ⟨j, hj⟩ := Option.ne_none_iff_exists'.mp hwriter.1
              refine .inl ⟨hnone, ⟨ins, todo, a, r, j, htodo, hchecked, ha, hr, hname, hj, ?_⟩, rfl⟩
              rintro rfl
              exact hwriter.2 hj
      · next hchecked =>
        have hchecked : c.checked = false := by simpa using hchecked
        unfold Race.select
        split
        · next hvisible =>
          split
          · next settings hcall =>
            exact .inr ⟨hnone, .skip htodo hchecked hvisible ⟨settings, hcall⟩⟩
          · next data hcall =>
            exact .inr ⟨hnone, .refuse htodo hchecked hvisible ⟨data, hcall⟩⟩
        · next hvisible => exact .inr ⟨hnone, .check htodo hchecked hvisible⟩

end Taskowl
