import Monkey.Source.File
import Monkey.Source.Position

/-! # The source cache

The files that diagnostics point into. A file is named by the number of files
that were in the cache when it came. -/

namespace Monkey

structure SourceCache where
  files : Array SourceFile

namespace SourceCache

def empty : SourceCache := ⟨#[]⟩

/-- The new file and the number it is known by, in 32 bits. -/
def add (cache : SourceCache) (name source : String) : FileId × SourceCache :=
  (UInt32.ofNat cache.files.size, ⟨cache.files.push (.ofText name source)⟩)

def get? (cache : SourceCache) (id : FileId) : Option SourceFile :=
  cache.files[id.toNat]?

/-- Forgets every file, so that numbers begin with zero again. -/
def clear (_ : SourceCache) : SourceCache := empty

/-! ## Requests -/

inductive Request where
  | add (name source : String)
  | clear
deriving DecidableEq

/-- Answers one request with the number of the file that it adds, so that any history of a
cache is a list of requests. -/
def answer (cache : SourceCache) : Request → Option FileId × SourceCache
  | .add name source =>
    let added := cache.add name source
    (some added.1, added.2)
  | .clear => (none, cache.clear)

end SourceCache

end Monkey
