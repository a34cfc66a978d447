import Pkgsrc.Pattern.Parse

/-!
# Pkgsrc.Cache -- parsed patterns that are kept

Each kept pattern comes with the proof that parsing its text gives it, and no text is kept twice.
So a text that cannot be parsed is never kept.
-/

namespace Pkgsrc

set_option autoImplicit false

structure Parsed where
  text : Text
  pattern : Pattern
  isParse : Pattern.parse text = .ok pattern

structure Cache where
  entries : List Parsed
  distinct : (entries.map Parsed.text).Nodup

namespace Cache

def empty : Cache :=
  ⟨[], by simp⟩

def find? (cache : Cache) (text : Text) : Option Parsed :=
  cache.entries.find? fun parsed => parsed.text == text

def contains (cache : Cache) (text : Text) : Bool :=
  (cache.find? text).isSome

def size (cache : Cache) : Nat :=
  cache.entries.length

theorem text_of_find? {cache : Cache} {text : Text} {parsed : Parsed}
    (found : cache.find? text = some parsed) : parsed.text = text := by
  have := List.find?_some found
  simpa using this

theorem parse_of_find? {cache : Cache} {text : Text} {parsed : Parsed}
    (found : cache.find? text = some parsed) : Pattern.parse text = .ok parsed.pattern :=
  text_of_find? found ▸ parsed.isParse

theorem mem_texts_of_find? {cache : Cache} {text : Text} {parsed : Parsed}
    (found : cache.find? text = some parsed) : text ∈ cache.entries.map Parsed.text :=
  List.mem_map.2 ⟨parsed, List.mem_of_find?_eq_some found, text_of_find? found⟩

theorem find?_eq_none_iff {cache : Cache} {text : Text} :
    cache.find? text = none ↔ text ∉ cache.entries.map Parsed.text := by
  simp only [find?, List.find?_eq_none, beq_iff_eq, List.mem_map]
  constructor
  · rintro absent ⟨parsed, held, rfl⟩
    exact absent parsed held rfl
  · intro absent parsed held same
    exact absent ⟨parsed, held, same⟩

def insert (cache : Cache) (parsed : Parsed) (absent : cache.find? parsed.text = none) : Cache :=
  ⟨parsed :: cache.entries,
    List.nodup_cons.2 ⟨find?_eq_none_iff.1 absent, cache.distinct⟩⟩

end Cache

end Pkgsrc
