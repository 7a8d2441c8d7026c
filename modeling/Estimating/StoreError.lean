/-
What can go wrong when a store is used.

* `StoreError` — the causes;
* `StoreError.message` — their wording.
-/

set_option autoImplicit false

namespace Estimating

/-- Why a store did not do what it was asked to. -/
inductive StoreError
  | unavailable (what : String)
  | /-- A write expected a version other than the stored one. -/
    versionConflict (key : String) (expected actual : Nat)
  | notFound (what : String)
  | /-- What is stored cannot be read. -/
    serialization (what : String)
deriving DecidableEq, Repr

/-- The wording of a store error. -/
def StoreError.message : StoreError → String
  | unavailable what => "Store unavailable: " ++ what
  | versionConflict key expected actual =>
    "Version conflict on '" ++ key ++ "': expected " ++ toString expected ++ ", found " ++
      toString actual
  | notFound what => "Not found: " ++ what
  | serialization what => "Serialization error: " ++ what

end Estimating
