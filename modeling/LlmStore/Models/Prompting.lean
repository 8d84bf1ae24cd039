import LlmStore.Models.Schema

/-!
# Metadata, prompt templates and file names

`utils/model_prompting.py` and the part of `services/admin_model_management.py` that the model handlers use. The text
of `metadata_json` is taken as what `json.loads` makes of it; the order in which `dump_metadata` sorts the keys is left
out.
-/

namespace LlmStore.Models

/-! ## Metadata -/

/-- `parse_metadata`. -/
def parseMetadata : MetadataJson → List (String × Json)
  | .value (.obj fields) => fields
  | _ => []

/-- One pass of the loop of `merge_metadata`. -/
def mergeField (payload : List (String × Json)) (update : String × Option Json) : List (String × Json) :=
  match update.2 with
  | none => Json.exclude [update.1] payload
  | some value => Json.setItem update.1 value payload

/-- `merge_metadata`. -/
def mergeMetadata (existing : MetadataJson) (updates : List (String × Option Json)) : MetadataJson :=
  .value (.obj (updates.foldl mergeField (parseMetadata existing)))

/-! ## Prompt templates -/

/-- `s.lower()`, as far as ASCII letters in the result go. -/
def lower (s : List Char) : List Char :=
  s.flatMap fun c =>
    if 'A' ≤ c ∧ c ≤ 'Z' then [Char.ofNat (c.toNat + 32)]
    else if c.toNat = 0x130 then ['i', Char.ofNat 0x307]
    else if c.toNat = 0x212A then ['k']
    else [c]

/-- `needle in s`. -/
def contains (needle : String) (s : List Char) : Bool := s.tails.any fun t => needle.toList.isPrefixOf t

/-- The first of the keys under which the metadata name an architecture. -/
def metadataArchitecture (fields : List (String × Json)) : Option (List Char) :=
  ["architecture", "model_architecture", "arch"].findSome? fun key =>
    match fields.lookup key with
    | some (.str value) => if Text.isBlank value then none else some (lower (Text.strip value))
    | _ => none

/-- `detect_architecture`. -/
def detectArchitecture (modelId modelFile : String) (modelAlias : Option String) (metadataJson : MetadataJson) :
    Option (List Char) :=
  match metadataArchitecture (parseMetadata metadataJson) with
  | some architecture => some architecture
  | none =>
    let joined := lower (" ".intercalate ([modelId, modelFile, modelAlias.getD ""].filter (· ≠ ""))).toList
    if contains "gemma" joined then some "gemma".toList
    else if contains "qwen3" joined then some "qwen3".toList
    else if contains "bonsai" joined || contains "bonzai" joined then some "qwen3".toList
    else if contains "qwen" joined then some "qwen".toList
    else none

/-- `detect_prompt_template`. -/
def detectPromptTemplate (modelId modelFile : String) (modelAlias : Option String) (metadataJson : MetadataJson) :
    Option String :=
  match detectArchitecture modelId modelFile modelAlias metadataJson with
  | none => none
  | some architecture =>
    if architecture = "gemma".toList then some "gemma"
    else if "qwen".toList.isPrefixOf architecture then some "qwen"
    else none

/-- `prompt_template_for_payload`. -/
def promptTemplateForPayload (promptTemplate : Option String) (modelId modelFile : String) (modelAlias : Option String)
    (metadataJson : MetadataJson) : String :=
  match promptTemplate.filter fun t => t ≠ "" ∧ t ≠ "auto" with
  | some template => template
  | none => (detectPromptTemplate modelId modelFile modelAlias metadataJson).getD "auto"

/-! ## Model files -/

/-- What `ensure_model_file_exists` finds under a file name. -/
inductive FileCheck where
  | present
  | missing
  /-- The name resolves to a path that is not inside the directory. -/
  | outside
  deriving DecidableEq

/-- `sanitize_model_filename`; the error is the text of its `ValueError`. -/
def sanitizeModelFilename (filename : String) (provider : Option Provider) : Except String String :=
  let value := Text.strip filename.toList
  if value = [] then .error "model file is required"
  else if value.head? = some '/' ∨ "..".toList ∈ value.splitOn '/' then .error "model file must stay inside /models"
  else if '/' ∈ value ∨ value = ".".toList then .error "model file must be a filename inside /models"
  else if provider = some .llamaCpp ∧ ¬ ".gguf".toList <:+ lower value then
    .error "llama.cpp models must use .gguf files"
  else .ok (String.ofList value)

example : sanitizeModelFilename " Gemma.GGUF " (some .llamaCpp) = .ok "Gemma.GGUF" := by decide +kernel

end LlmStore.Models
