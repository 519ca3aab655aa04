import ShaderInline.Path.Basic

/-!
# Maps from paths

A finite map whose keys are compared as paths. A key that is inserted again keeps its text and takes
the new value.
-/
namespace ShaderInline

structure PathMap (α : Type) where
  entries : List (Path × α) := []
  deriving DecidableEq, Repr

namespace PathMap

variable {α : Type}

def replace (path : Path) (value : α) : List (Path × α) → List (Path × α)
  | [] => [(path, value)]
  | (key, previous) :: entries =>
    if key ≈ path then (key, value) :: entries
    else (key, previous) :: replace path value entries

def insert (map : PathMap α) (path : Path) (value : α) : PathMap α :=
  ⟨replace path value map.entries⟩

def get? (map : PathMap α) (path : Path) : Option α :=
  (map.entries.find? fun entry => entry.1 ≈ path).map (·.2)

def contains (map : PathMap α) (path : Path) : Bool :=
  map.entries.any fun entry => entry.1 ≈ path

/-- The keys, each as it was written when it was first inserted. -/
def keys (map : PathMap α) : List Path := map.entries.map (·.1)

def size (map : PathMap α) : Nat := map.entries.length

theorem contains_eq_isSome_get? (map : PathMap α) (path : Path) :
    map.contains path = (map.get? path).isSome := by
  rw [Bool.eq_iff_iff]
  simp [contains, get?]

theorem find?_replace (path other : Path) (value : α) (entries : List (Path × α)) :
    ((replace path value entries).find? fun entry => entry.1 ≈ other).map (·.2) =
      if path ≈ other then some value
      else (entries.find? fun entry => entry.1 ≈ other).map (·.2) := by
  induction entries with
  | nil => by_cases h : path ≈ other <;> simp [replace, h]
  | cons entry entries ih =>
    obtain ⟨key, previous⟩ := entry
    unfold replace
    split
    case isTrue hkey =>
      have hsame : key ≈ other ↔ path ≈ other :=
        ⟨fun h => Setoid.trans (Setoid.symm hkey) h, fun h => Setoid.trans hkey h⟩
      by_cases h : path ≈ other <;> simp [hsame, h]
    case isFalse hkey =>
      by_cases h : key ≈ other
      · have hother : ¬ path ≈ other := fun hp => hkey (Setoid.trans h (Setoid.symm hp))
        simp [h, hother]
      · simp [h, ih]

/-- An insertion gives its value to every path that names the file, and to no other. -/
theorem get?_insert (map : PathMap α) (path other : Path) (value : α) :
    (map.insert path value).get? other = if path ≈ other then some value else map.get? other :=
  find?_replace path other value map.entries

/-- An insertion adds the inserted path and nothing else. -/
theorem contains_insert (map : PathMap α) (path other : Path) (value : α) :
    (map.insert path value).contains other = (decide (path ≈ other) || map.contains other) := by
  rw [contains_eq_isSome_get?, contains_eq_isSome_get?, get?_insert]
  by_cases h : path ≈ other <;> simp [h]

theorem contains_congr (map : PathMap α) {path other : Path} (h : path ≈ other) :
    map.contains path = map.contains other := by
  unfold contains
  congr 1
  funext entry
  exact decide_eq_decide.mpr
    ⟨fun he => Setoid.trans he h, fun he => Setoid.trans he (Setoid.symm h)⟩

theorem exists_key_of_get? {map : PathMap α} {path : Path} {value : α}
    (h : map.get? path = some value) : ∃ key ∈ map.keys, key ≈ path := by
  obtain ⟨entry, hfound, _⟩ := Option.map_eq_some_iff.mp h
  refine ⟨entry.1, List.mem_map_of_mem (List.mem_of_find?_eq_some hfound), ?_⟩
  simpa using List.find?_some hfound

end PathMap

end ShaderInline
