import MoenotesAssets.Foundation.Bytes
import Mathlib.Data.String.Basic

/-! Published exports of `service.rs` and `worker.rs`: artifacts, manifests, and the names
of the files that hold them.
-/

namespace MoenotesAssets.Export

/-- `metadata["split_acb"]`: what a split sound was put together from. -/
structure SplitAcb where
  cueSheet : String
  chunks : Nat
  reconstructedSha256 : String
  assembly : String
deriving DecidableEq

/-- `worker::Artifact`; of `metadata` the two texts that are read elsewhere, and what is added for a
split sound.
-/
structure Artifact where
  name : String
  label : String
  mediaType : String
  bytes : Nat
  sha256 : String
  stableId : Option String
  role : Option String
  splitAcb : Option SplitAcb := none
deriving DecidableEq

/-- `service::PublishedFile` -/
structure PublishedFile where
  artifact : Artifact
  id : String
deriving DecidableEq

/-- `service::Manifest` -/
structure Manifest where
  id : String
  snapshot : String
  key : String
  profile : String
  files : List PublishedFile
  empty : Bool
deriving DecidableEq

/-- `worker::PROFILE` -/
def workerProfile : String := "json-png-aac-h264-mask-http-v3"

/-- A name that is its own `Path::file_name`: one normal component. -/
def isFileName (name : String) : Bool :=
  name ≠ "" && name ≠ "." && name ≠ ".." && !name.toList.contains '/'

/-- `Output::path`: the file of the artifact at `index`. -/
def outputName (index : Nat) (extension : String) : String :=
  String.ofList ((Nat.toDigits 10 index).leftpad 5 '0') ++ "." ++ extension

/-- What an output name has before its dot are digits. -/
theorem outputIndex_digits (index : Nat)
    : ∀ letter ∈ (Nat.toDigits 10 index).leftpad 5 '0', letter.isDigit = true :=
  Foundation.Bytes.leftpad_digits 5 index

/-- An output name has digits before its dot. -/
theorem outputIndex_ne_nil (index : Nat) : (Nat.toDigits 10 index).leftpad 5 '0' ≠ [] := by
  intro empty
  rw [List.leftpad, List.append_eq_nil_iff] at empty
  exact Nat.toDigits_ne_nil empty.2

/-- Five digits are written for an index that has no more. -/
theorem outputIndex_length {index : Nat} (small : index < 10 ^ 5)
    : ((Nat.toDigits 10 index).leftpad 5 '0').length = 5 := by
  have short : (Nat.toDigits 10 index).length ≤ 5 :=
    (Nat.length_toDigits_le_iff (by decide) (by decide)).mpr small
  rw [List.length_leftpad, Nat.max_eq_left short]

/-- The digits of an output name are those of its index. -/
theorem outputIndex_value (index : Nat)
    : Nat.ofDigitChars 10 ((Nat.toDigits 10 index).leftpad 5 '0') 0 = index := by
  rw [List.leftpad, Nat.ofDigitChars_append, Nat.ofDigitChars_replicate_zero, Nat.mul_zero,
    Nat.ofDigitChars_ten_toDigits]

/-- The letters of an output name. -/
theorem outputName_toList (index : Nat) (extension : String)
    : (outputName index extension).toList
      = (Nat.toDigits 10 index).leftpad 5 '0' ++ '.' :: extension.toList := by
  simp only [outputName, String.toList_append, String.toList_ofList, List.append_assoc]
  rfl

/-- An output name tells the index of its artifact, whatever its extension. -/
theorem outputName_index {index other : Nat} {extension extension' : String}
    (same : outputName index extension = outputName other extension')
    : index = other := by
  have dotless : ∀ number, '.' ∉ (Nat.toDigits 10 number).leftpad 5 '0' :=
    fun number member => absurd (outputIndex_digits number '.' member) (by decide)
  have letters := congrArg String.toList same
  rw [outputName_toList, outputName_toList] at letters
  have digits := (Foundation.Bytes.separated_inj (dotless index) (dotless other) letters).1
  rw [← outputIndex_value index, digits, outputIndex_value]

/-- An output name starts with a digit. -/
theorem outputName_head (index : Nat) (extension : String)
    : ∃ digit rest,
        (outputName index extension).toList = digit :: rest ∧ digit.isDigit = true := by
  obtain ⟨digit, rest, split⟩ := List.exists_cons_of_ne_nil (outputIndex_ne_nil index)
  refine ⟨digit, rest ++ '.' :: extension.toList, ?_, ?_⟩
  · rw [outputName_toList, split, List.cons_append]
  · exact outputIndex_digits index digit (split ▸ List.mem_cons_self)

/-- No artifact is named like the manifest that is written next to it. -/
theorem outputName_ne_manifest (index : Nat) (extension : String)
    : outputName index extension ≠ "manifest.json" := by
  intro same
  obtain ⟨digit, rest, split, isDigit⟩ := outputName_head index extension
  rw [same] at split
  have first : digit = 'm' := (List.cons.inj split).1.symm
  rw [first] at isDigit
  exact absurd isDigit (by decide)

end MoenotesAssets.Export
