import MoenotesAssets.Foundation.Fallible

/-! Responses as a streaming client sees them. -/

namespace Foundation

/-- What arrives of a response: its stream yields `chunks` and then ends, or breaks off with an
error.
-/
structure Response where
  status : Nat
  contentLength : Option Nat
  chunks : List (List UInt8)
  ended : Bool
deriving DecidableEq

namespace Response

universe u

/-- The bytes that arrived. -/
def body (response : Response) : List UInt8 := response.chunks.flatten

/-- A loop that appends each chunk that passes its check ends with all of them, by induction
on the chunks.
-/
theorem received_all {ε : Type u} {receive : List UInt8 → List UInt8 → Except ε (List UInt8)}
    (appends
      : ∀ received chunk next, receive received chunk = .ok next → next = received ++ chunk)
    {chunks : List (List UInt8)} {before received : List UInt8}
    (done : chunks.foldlM receive before = .ok received)
    : received = before ++ chunks.flatten := by
  induction chunks generalizing before with
  | nil =>
      obtain rfl := pure_ok.mp done
      rw [List.flatten_nil, List.append_nil]
  | cons chunk rest ih =>
      rw [List.foldlM_cons] at done
      obtain ⟨next, step, done⟩ := bind_ok.mp done
      rw [ih done, appends before chunk next step, List.flatten_cons, List.append_assoc]

end Response

end Foundation
