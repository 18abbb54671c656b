/-!
# Sparse vectors

A vector is stored as two parallel lists, the indices and the values of its entries. Compression
drops the zeros of a value list and keeps the order it is given; expansion writes the entries into
a dense list from left to right, so that of several entries at one index the last one counts.
A vector arriving from outside may be ragged or repeat an index: `SparseVec.fault?` names the first
thing that is wrong with it.
-/
namespace SolverSession

variable {α : Type}

/-- Entry `k` of the vector is `values[k]` at position `indices[k]`. -/
structure SparseVec (α : Type) where
  indices : List Nat
  values : List α
deriving BEq, DecidableEq, Inhabited

namespace SparseVec

def empty : SparseVec α := ⟨[],[]⟩

/-- The nonzero values with their indices. A value takes the index given for it, and its own
position where the given indices have run out. -/
def nonzeros [Zero α] [BEq α] : Nat → List α → List Nat → List (Nat × α)
  | _, [], _ => []
  | position, v :: vs, given =>
    let rest := nonzeros (position+1) vs given.tail
    if v == 0 then rest else (given.headD position,v) :: rest

def ofEntries (entries : List (Nat × α)) : SparseVec α :=
  ⟨entries.map (·.1),entries.map (·.2)⟩

def compress [Zero α] [BEq α] (values : List α) (given : List Nat) : SparseVec α :=
  ofEntries (nonzeros 0 values given)

def ofDense [Zero α] [BEq α] (values : List α) : SparseVec α := compress values []

def ofPairs [Zero α] [BEq α] (pairs : List (Nat × α)) : SparseVec α :=
  compress (pairs.map (·.2)) (pairs.map (·.1))

def size (v : SparseVec α) : Nat := v.indices.length

/-- No index is stored. Values without an index do not count. -/
def isEmpty (v : SparseVec α) : Bool := v.indices.isEmpty

def entries (v : SparseVec α) : List (Nat × α) := v.indices.zip v.values

def wordCount : Nat := 0x10000000000000000

/-- One more than the largest index, and zero without indices. The last of all words has no
successor: with it among the indices there is no answer, and the call is cut short. -/
def extent? (v : SparseVec α) : Option Nat :=
  match v.indices.max? with
  | none => some 0
  | some i => if i+1 < wordCount then some (i+1) else none

/-- Writes one entry into a dense list; an index outside the list writes nothing. -/
def write (dense : List α) (entry : Nat × α) : List α := dense.set entry.1 entry.2

def toDense [Zero α] (v : SparseVec α) (n : Nat) : List α :=
  v.entries.foldl write (List.replicate n 0)

end SparseVec

inductive RowFault where
  | ragged (indices values : Nat)
  | outOfRange (index bound : Nat)
  | repeated (index : Nat)
deriving DecidableEq

def RowFault.message (what : String) : RowFault → String
  | .ragged indices values => s!"{what} has {indices} indices but {values} values"
  | .outOfRange index bound => s!"{what} references index {index} but only {bound} are defined"
  | .repeated index => s!"{what} repeats index {index}"

def firstRepeat (seen : List Nat) : List Nat → Option Nat
  | [] => none
  | i :: rest => if i ∈ seen then some i else firstRepeat (i :: seen) rest

def SparseVec.fault? (v : SparseVec α) (bound : Nat) : Option RowFault :=
  if v.indices.length ≠ v.values.length then
    some (.ragged v.indices.length v.values.length)
  else match v.indices.find? (bound ≤ ·) with
    | some i => some (.outOfRange i bound)
    | none => (firstRepeat [] v.indices).map .repeated

end SolverSession
