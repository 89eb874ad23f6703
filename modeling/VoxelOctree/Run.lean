import VoxelOctree.Error
import VoxelOctree.Log

namespace VoxelOctree

structure Run (α : Type) where
  log : Log
  outcome : Except Failure α

namespace Run

def ok {α : Type} (a : α) : Run α :=
  ⟨[], .ok a⟩

def fail {α : Type} (f : Failure) : Run α :=
  ⟨[], .error f⟩

def tell (log : Log) : Run Unit :=
  ⟨log, .ok ()⟩

def ofError {α : Type} (r : Except Error α) : Run α :=
  ⟨[], r.mapError .error⟩

def ofFault {α : Type} (r : Except Fault α) : Run α :=
  ⟨[], r.mapError .fault⟩

def andThen {α β : Type} (r : Run α) (f : α → Run β) : Run β :=
  match r.outcome with
  | .ok a => ⟨r.log ++ (f a).log, (f a).outcome⟩
  | .error e => ⟨r.log, .error e⟩

instance : Monad Run where
  pure := ok
  bind := andThen

end Run

end VoxelOctree
