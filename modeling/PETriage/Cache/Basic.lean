import PETriage.Report.Records

/-!
# Caches of analyses

A cache keeps analyses under keys in a store of its own kind. A lookup may fail; a put may
fail to write, which costs nothing, or break down.
-/
namespace PETriage

open Report (Analysis)

inductive Cache.PutFault
  | notWritten (reason : String)
  | broken (reason : String)
  deriving DecidableEq, Repr

structure Cache (σ : Type) where
  get : String → σ → Except String (Option Analysis) × σ
  put : String → Analysis → σ → Except Cache.PutFault Unit × σ

end PETriage
