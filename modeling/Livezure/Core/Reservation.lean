import Mathlib.Data.List.Nodup

/-! Keys that a participant finds free first and takes later. While no key is
claimed by two participants, none is taken twice. -/
namespace Livezure.Core

section Reservation
variable {Key : Type}

/-- `taken` has no key twice, and what the participants claim is free and differs. -/
structure Reserved (taken : List Key) (claims : List (Option Key)) : Prop where
  unique : taken.Nodup
  free : ∀ key, some key ∈ claims → key ∉ taken
  apart : ∀ (first second : Nat) (key : Key), claims[first]? = some (some key) →
    claims[second]? = some (some key) → first = second

namespace Reserved
variable {taken : List Key} {claims : List (Option Key)} {index : Nat} {key : Key}

theorem start (unique : taken.Nodup) : Reserved taken [] :=
  ⟨unique, nofun, nofun⟩

private theorem set_cases {claim now : Option Key} {place : Nat}
    (found : (claims.set index claim)[place]? = some now) :
    (place = index ∧ now = claim) ∨ (place ≠ index ∧ claims[place]? = some now) := by
  rw [List.getElem?_set] at found
  split at found
  · rename_i same
    split at found
    · exact .inl ⟨same.symm, (Option.some.inj found).symm⟩
    · cases found
  · rename_i differ
    exact .inr ⟨fun same => differ same.symm, found⟩

theorem join (reserved : Reserved taken claims) : Reserved taken (claims ++ [none]) := by
  have old : ∀ (place : Nat) (key : Key), (claims ++ [none])[place]? = some (some key) →
      claims[place]? = some (some key) := by
    intro place key found
    by_cases inside : place < claims.length
    · rwa [List.getElem?_append_left inside] at found
    · rw [List.getElem?_append_right (Nat.not_lt.mp inside)] at found
      have member := List.mem_of_getElem? found
      cases List.mem_singleton.mp member
  refine ⟨reserved.unique, ?_, ?_⟩
  · intro key member
    rcases List.mem_append.mp member with listed | new
    · exact reserved.free key listed
    · cases List.mem_singleton.mp new
  · intro first second key atFirst atSecond
    exact reserved.apart first second key (old first key atFirst) (old second key atSecond)

theorem drop (reserved : Reserved taken claims) (index : Nat) :
    Reserved taken (claims.set index none) := by
  have old : ∀ (place : Nat) (key : Key), (claims.set index none)[place]? = some (some key) →
      claims[place]? = some (some key) := by
    intro place key found
    rcases set_cases found with ⟨_, impossible⟩ | ⟨_, found⟩
    · cases impossible
    · exact found
  refine ⟨reserved.unique, ?_, ?_⟩
  · intro key member
    obtain ⟨place, found⟩ := List.getElem?_of_mem member
    exact reserved.free key (List.mem_of_getElem? (old place key found))
  · intro first second key atFirst atSecond
    exact reserved.apart first second key (old first key atFirst) (old second key atSecond)

/-- A participant claims a free key that nobody else claims. -/
theorem claim (reserved : Reserved taken claims) (fresh : key ∉ taken)
    (alone : ∀ other, other ≠ index → claims[other]? ≠ some (some key)) :
    Reserved taken (claims.set index (some key)) := by
  refine ⟨reserved.unique, ?_, ?_⟩
  · intro other member
    obtain ⟨place, found⟩ := List.getElem?_of_mem member
    rcases set_cases found with ⟨_, same⟩ | ⟨_, found⟩
    · exact Option.some.inj same ▸ fresh
    · exact reserved.free other (List.mem_of_getElem? found)
  · intro first second other atFirst atSecond
    rcases set_cases atFirst with ⟨rfl, same⟩ | ⟨differFirst, found⟩
    · rcases set_cases atSecond with ⟨rfl, _⟩ | ⟨differ, foundSecond⟩
      · rfl
      · exact absurd (same ▸ foundSecond) (alone second differ)
    · rcases set_cases atSecond with ⟨rfl, same⟩ | ⟨_, foundSecond⟩
      · exact absurd (same ▸ found) (alone first differFirst)
      · exact reserved.apart first second other found foundSecond

/-- A participant takes the key it has claimed. -/
theorem take (reserved : Reserved taken claims) (own : claims[index]? = some (some key)) :
    Reserved (taken ++ [key]) (claims.set index none) := by
  have fresh := reserved.free key (List.mem_of_getElem? own)
  have dropped := reserved.drop index
  refine ⟨List.Nodup.append reserved.unique (List.nodup_singleton key) ?_, ?_, dropped.apart⟩
  · intro other listed same
    exact fresh (List.mem_singleton.mp same ▸ listed)
  · intro other member listed
    rcases List.mem_append.mp listed with old | new
    · exact dropped.free other member old
    · obtain rfl := List.mem_singleton.mp new
      obtain ⟨place, found⟩ := List.getElem?_of_mem member
      rcases set_cases found with ⟨_, impossible⟩ | ⟨differ, found⟩
      · cases impossible
      · exact differ (reserved.apart place index other found own)

theorem keep (reserved : Reserved taken claims) {before after : Option Key}
    (own : claims[index]? = some before) (same : after = before ∨ after = none) :
    Reserved taken (claims.set index after) := by
  rcases same with rfl | rfl
  · obtain ⟨inside, same⟩ := List.getElem?_eq_some_iff.mp own
    rw [← same, List.set_getElem_self]
    exact reserved
  · exact reserved.drop index

end Reserved
end Reservation
end Livezure.Core
