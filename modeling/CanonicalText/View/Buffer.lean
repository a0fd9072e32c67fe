import CanonicalText.View.Store

/-!
# Buffers

A buffer is a view together with the store it looks into.
-/

namespace CanonicalText

structure Buffer (α : Type) where
  store : Store α
  view : View

namespace Buffer

variable {α : Type}

def ofList (items : List α) : Buffer α :=
  let (view, store) := Store.empty.allocate items.toArray
  ⟨store, view⟩

def elements (b : Buffer α) : List α := b.store.elements b.view

def length (b : Buffer α) : UInt64 := b.view.length

def slice (b : Buffer α) (lower upper : Bound Index) : Except Fault (Buffer α) :=
  (b.view.slice lower upper).map fun view => { b with view }

def range (b : Buffer α) (lower upper : Bound UInt64) : Except Fault (Buffer α) :=
  (b.view.range lower upper).map fun view => { b with view }

end Buffer

end CanonicalText
