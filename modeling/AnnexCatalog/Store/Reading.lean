import AnnexCatalog.Store.Basic

/-! # Reading from a store

A reading asks a store for one thing after another and stops at the first operation that fails. It
keeps the operations that were called, in order.
-/

namespace AnnexCatalog

/-- The operations called so far, and the value read or the fault that ended the reading. -/
structure Reading (α : Type) where
  calls : List StoreCall
  outcome : Except StoreFault α

namespace Reading

variable {α β : Type}

def of (value : α) : Reading α := ⟨[], .ok value⟩

/-- Go on with a value read. -/
def andThen (first : Reading α) (next : α → Reading β) : Reading β :=
  match first.outcome with
  | .ok value => ⟨first.calls ++ (next value).calls, (next value).outcome⟩
  | .error fault => ⟨first.calls, .error fault⟩

instance : Monad Reading where
  pure := of
  bind := andThen

/-- Call one operation, of which the answer is given. -/
def ask (call : StoreCall) (answer : Except String α) : Reading α :=
  ⟨[call], answer.mapError fun reason => ⟨call, reason⟩⟩

end Reading

end AnnexCatalog
