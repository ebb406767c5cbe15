import SecureMcp.Edge.SignedCalls
import SecureMcp.Python.Unambiguous

/-! The text that a signature covers says what was asked for, and nothing else: no two requests that
differ share one.
-/

namespace SecureMcp

namespace Auth

open Interceptor

/-- What a signature covers, as Python dictionaries have it. -/
structure SignedTuple.Distinct (tuple : SignedTuple) : Prop where
  nonce : tuple.nonce.DistinctKeys
  timestamp : tuple.timestamp.DistinctKeys
  tool : tuple.tool.DistinctKeys
  arguments : tuple.arguments.DistinctKeys

theorem SignedTuple.Distinct.json {tuple : SignedTuple} (distinct : tuple.Distinct)
    : tuple.json.DistinctKeys :=
  ⟨by simp [Dict.keys], distinct.nonce, distinct.timestamp, trivial, distinct.tool,
    distinct.arguments, trivial⟩

/-- Covered values are the same up to key order part by part. -/
theorem SignedTuple.reordered_iff {tuple other : SignedTuple} (distinct : tuple.Distinct)
    (distinct' : other.Distinct)
    : Json.Reordered tuple.json other.json ↔ tuple.Same other := by
  have part {one two : Json} (order : Option.Rel Json.Reordered (some one) (some two))
      : Json.Reordered one two := by
    cases order with
    | some same => exact same
  constructor
  · intro order
    have each := (Json.reordered_obj_iff distinct.json.1 distinct'.json.1).mp order
    have method := part (each "method")
    refine ⟨part (each "nonce"), part (each "timestamp"), ?_, part (each "tool"),
      part (each "arguments")⟩
    exact (Json.str.inj (Json.Reordered.eq_of_atomic (.refl _) method rfl)).symm
  · intro same
    unfold SignedTuple.json
    rw [same.method]
    exact .obj (.cons same.nonce (.cons same.timestamp (.cons (.refl _) (.cons same.tool
      (.cons same.arguments .nil))))) (List.Perm.refl _)

/-- Two requests have one signed text exactly when they ask for the same: the same nonce, timestamp,
method, tool and arguments, up to the key order of objects.
-/
theorem signed_text_iff {tuple other : SignedTuple} {text : String} (distinct : tuple.Distinct)
    (distinct' : other.Distinct) (printed : signaturePayload tuple = .ok text)
    : signaturePayload other = .ok text ↔ tuple.Same other :=
  (CanonicalJson.encode_eq_iff distinct.json distinct'.json printed).trans
    (SignedTuple.reordered_iff distinct distinct')

/-- A call with two arguments. -/
def twoArguments (arguments : List (String × Json)) : SignedTuple where
  nonce := .str "0f6e7a52-7d4b-4a53-9e0a-0c1d2e3f4a5b"
  timestamp := .int 1700000000
  method := "tools/call"
  tool := .str "transfer"
  arguments := .obj arguments

/-- The order in which a client names its arguments is not signed. -/
theorem signed_text_of_turned_arguments
    : ∃ text,
        signaturePayload (twoArguments [("to", .str "alice"), ("amount", .int 5)]) = .ok text
        ∧ (signaturePayload (twoArguments [("amount", .int 5), ("to", .str "alice")]) = .ok text
          ↔ (twoArguments [("to", .str "alice"), ("amount", .int 5)]).Same
              (twoArguments [("amount", .int 5), ("to", .str "alice")])) := by
  have distinct {first second : String × Json} (differs : first.1 ≠ second.1)
      (plain : first.2.DistinctKeys) (plain' : second.2.DistinctKeys)
      : (twoArguments [first, second]).Distinct :=
    ⟨trivial, trivial, trivial, by simpa [Dict.keys] using differs, plain, plain', trivial⟩
  have numbers : CanonicalJson.finite
      (twoArguments [("to", .str "alice"), ("amount", .int 5)]).json = true :=
    rfl
  obtain ⟨text, printed⟩ := CanonicalJson.exists_encode numbers
  exact ⟨text, printed, signed_text_iff (distinct (by decide) trivial trivial)
    (distinct (by decide) trivial trivial) printed⟩

end Auth

end SecureMcp
