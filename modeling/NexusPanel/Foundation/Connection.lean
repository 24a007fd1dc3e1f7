import NexusPanel.Foundation.Action

/-!
# Statements that may fail

A connection to a store issues one statement after the other. The environment decides, by the
number of the statement, whether it fails for a reason of its own; one that does not fail is
carried out, and the store may still refuse it. A statement that fails in either way leaves the
store as it was: it is a transaction of its own. What the store is is left open.
-/

/-- A store, how many statements have been issued, and which of them fail. -/
structure Connection (T ε : Type) where
  tables : T
  issued : Nat
  failure : Nat → Option ε

namespace Connection

open StateAction

variable {T ε α : Type} {c : Connection T ε}

def next (c : Connection T ε) : Connection T ε := { c with issued := c.issued + 1 }

def put (c : Connection T ε) (t : T) : Connection T ε := { c.next with tables := t }

@[simp] theorem tables_next : c.next.tables = c.tables := rfl

@[simp] theorem tables_put {t : T} : (c.put t).tables = t := rfl

/-- A statement that writes; the store may refuse it. -/
def statement (f : T → Except ε T) : StateAction (Connection T ε) ε Unit := fun c =>
  match c.failure c.issued with
  | some e => (.error e, c.next)
  | none =>
    match f c.tables with
    | .ok t => (.ok (), c.put t)
    | .error e => (.error e, c.next)

/-- A statement that reads. -/
def query (f : T → α) : StateAction (Connection T ε) ε α := fun c =>
  match c.failure c.issued with
  | some e => (.error e, c.next)
  | none => (.ok (f c.tables), c.next)

theorem statement_fails {f : T → Except ε T} {e : ε} (h : c.failure c.issued = some e) :
    statement f c = (.error e, c.next) := by
  simp only [statement, h]

theorem statement_refused {f : T → Except ε T} {e : ε} (h : c.failure c.issued = none)
    (hf : f c.tables = .error e) : statement f c = (.error e, c.next) := by
  simp only [statement, h, hf]

theorem statement_done {f : T → Except ε T} {t : T} (h : c.failure c.issued = none)
    (hf : f c.tables = .ok t) : statement f c = (.ok (), c.put t) := by
  simp only [statement, h, hf]

theorem query_fails {f : T → α} {e : ε} (h : c.failure c.issued = some e) :
    query f c = (.error e, c.next) := by
  simp only [query, h]

theorem query_done {f : T → α} (h : c.failure c.issued = none) :
    query f c = (.ok (f c.tables), c.next) := by
  simp only [query, h]

end Connection
