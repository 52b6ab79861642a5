import Gatekeeper.Error
import Gatekeeper.Journal

/-!
# Runs

A run yields a result, and with it what it reported and what it sent, also when
it fails.
-/

namespace Gatekeeper

structure Run (α : Type) where
  result : Except Error α
  journal : Journal
  requests : List Request

namespace Run

def yield (a : α) : Run α := ⟨.ok a, [], []⟩

def fail (e : Error) : Run α := ⟨.error e, [], []⟩

def andThen (run : Run α) (next : α → Run β) : Run β :=
  match run.result with
  | .ok a =>
    let rest := next a
    ⟨rest.result, run.journal ++ rest.journal, run.requests ++ rest.requests⟩
  | .error e => ⟨.error e, run.journal, run.requests⟩

instance : Monad Run where
  pure := yield
  bind := andThen

def ofExcept (result : Except Error α) : Run α := ⟨result, [], []⟩

def note (journal : Journal) : Run Unit := ⟨.ok (), journal, []⟩

def send (transport : Transport) (request : Request) : Run Response :=
  ⟨(transport request).mapError .transport, [], [request]⟩

end Run
end Gatekeeper
