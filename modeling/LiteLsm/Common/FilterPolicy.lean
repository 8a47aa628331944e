import LiteLsm.Common.Coding

/-!
# Filter policies

A policy summarizes lists of keys in filters.  Its contract is part of its
type: `CreateFilter` appends a filter to `*dst`, changes nothing before it,
and what it appends depends on the keys alone.
-/

namespace LiteLsm

structure FilterPolicy where
  createFilter : (keys : List Bytes) → (dst : Bytes) → Bytes
  keyMayMatch : (key filter : Bytes) → Bool
  appends : ∀ keys dst, createFilter keys dst = dst ++ createFilter keys []

namespace FilterPolicy

/-- The filter made from a list of keys. -/
def filterOf (policy : FilterPolicy) (keys : List Bytes) : Bytes :=
  policy.createFilter keys []

theorem createFilter_eq (policy : FilterPolicy) (keys : List Bytes)
    (dst : Bytes) :
    policy.createFilter keys dst = dst ++ policy.filterOf keys :=
  policy.appends keys dst

/-- The policy never denies a key from the list its filter was made from.  The
length of a list is an `int`. -/
def Complete (policy : FilterPolicy) : Prop :=
  ∀ keys key, keys.length < 2 ^ 31 → key ∈ keys →
    policy.keyMayMatch key (policy.filterOf keys) = true

end FilterPolicy

end LiteLsm
