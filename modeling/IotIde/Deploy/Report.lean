import IotIde.Json.Getters
import IotIde.StringBuilder

/-!
# The deploy status record

`deploy_report_status` of `deploy_manager.c` escapes four texts into a status object,
escapes the object again and posts it as one string property.

* `deployReportStatus` — the function, with the outcome of each of its allocations;
* `deployReportStatus_posts` — with all of them granted it posts the whole record, up
  to the `INT_MAX` bytes a formatting call can report;
* `deployStatus_roundTrip` — what a reader gets back: the status object from the posted
  property, and from it the four texts, whatever they contain;
* `deployReportStatus_oversized` — beyond `INT_MAX` bytes the record is lost.
-/

namespace IotIde

open CText JsonText

/-- What a call of `deploy_report_status` comes to.  When the first `sb_init` fails, the
second builder is freed before it was ever initialised. -/
inductive ReportOutcome
  | posted (params : Bytes)
  | skipped
  | undefinedFree
  deriving DecidableEq

/-- The status object, formatted by `sb_appendf`. -/
def deployStatusText (success : Bool) (escapedMessage escapedLog : Bytes) (nowMs : ℤ)
    (escapedProject escapedPath : Bytes) : Bytes :=
  ascii "\x7b\"success\":" ++ ((if success then ascii "true" else ascii "false") ++
    (ascii ",\"message\":\"" ++ (escapedMessage ++
      (ascii "\",\"deployLog\":\"" ++ (escapedLog ++
        (ascii "\",\"timestamp\":" ++ (decimal nowMs ++
          (ascii ",\"projectName\":\"" ++ (escapedProject ++
            (ascii "\",\"deployPath\":\"" ++ (escapedPath ++ ascii "\"\x7d")))))))))))

/-- The posted record, formatted by `sb_appendf`. -/
def deployParamsText (escapedStatus : Bytes) : Bytes :=
  ascii "\x7b\"deployStatus\":\"" ++ (escapedStatus ++ ascii "\"\x7d")

/-- `deploy_report_status`; `alloc` gives the outcomes of its nine possible allocations:
the two `sb_init`, the four `deploy_escape_alloc`, the growth of the status builder, the
`malloc` of the escaped status, and the growth of the record builder. -/
def deployReportStatus (alloc : ℕ → Bool) (success : Bool) (message deployLog projectName
    deployPath : Bytes) (nowMs : ℤ) : ReportOutcome :=
  let (rc₁, statusJson) := sbInit (alloc 0) 1024
  if rc₁ ≠ 0 then .undefinedFree
  else
    let (rc₂, paramsJson) := sbInit (alloc 1) 1024
    if rc₂ ≠ 0 then .skipped
    else
      match escapeAlloc (alloc 2) message, escapeAlloc (alloc 3) deployLog,
        escapeAlloc (alloc 4) projectName, escapeAlloc (alloc 5) deployPath with
      | some escapedMessage, some escapedLog, some escapedProject, some escapedPath =>
        let (_, statusJson) := sbAppendf (alloc 6) statusJson
          (deployStatusText success escapedMessage escapedLog nowMs escapedProject escapedPath)
        if alloc 7 then
          let escaped := jsonEscapeString (cstr statusJson.data)
            (List.replicate (statusJson.length * 2 + 32) 0)
          if escaped.rc ≠ 0 then .skipped
          else
            let (_, paramsJson) := sbAppendf (alloc 8) paramsJson
              (deployParamsText (cstr escaped.out))
            .posted (cstr paramsJson.data)
        else .skipped
      | _, _, _, _ => .skipped

/-! ## The record as a parse tree -/

/-- The status object as a parse tree. -/
def deployStatusDoc (success : Bool) (message deployLog : Bytes) (nowMs : ℤ)
    (projectName deployPath : Bytes) : Doc .value :=
  .object (.moreMembers (keyName "success") (.scalar (boolScalar success)) .none
    (.moreMembers (keyName "message") (.string (escapedLit message)) .none
      (.moreMembers (keyName "deployLog") (.string (escapedLit deployLog)) .none
        (.moreMembers (keyName "timestamp") (.scalar (decimalScalar nowMs)) .none
          (.moreMembers (keyName "projectName") (.string (escapedLit projectName)) .none
            (.member (keyName "deployPath") (.string (escapedLit deployPath)) .none))))))

theorem deployStatusDoc_text (success : Bool) (message deployLog : Bytes) (nowMs : ℤ)
    (projectName deployPath : Bytes) :
    (deployStatusDoc success message deployLog nowMs projectName deployPath).text =
      deployStatusText success (escape message) (escape deployLog) nowMs (escape projectName)
        (escape deployPath) := by
  simp only [deployStatusDoc, Doc.text, StrLit.text, escapedLit, List.append_assoc,
    List.cons_append, List.nil_append, Ws.none, keyName, Name.text, Name.bare]
  rfl

/-- The posted record as a parse tree. -/
def deployParamsDoc (status : Bytes) : Doc .value :=
  .object (.member (keyName "deployStatus") (.string (escapedLit status)) .none)

theorem deployParamsDoc_text (status : Bytes) :
    (deployParamsDoc status).text = deployParamsText (escape status) := by
  simp only [deployParamsDoc, Doc.text, StrLit.text, escapedLit, List.append_assoc,
    List.cons_append, List.nil_append, Ws.none, keyName, Name.text, Name.bare]
  rfl

/-! ## What is posted -/

/-- What is left of a text in a fresh builder: `sb_appendf` drops one that is too long
to be measured. -/
def formatted (text : Bytes) : Bytes := if text.length ≤ INT_MAX then text else []

theorem nul_notMem_formatted {text : Bytes} (h : 0 ∉ text) : 0 ∉ formatted text := by
  unfold formatted
  split
  · exact h
  · simp

theorem sbAppendf_formatted {builder : StringBuilder} (h : builder.Holds []) (text : Bytes) :
    (sbAppendf true builder text).2.Holds (formatted text) := by
  unfold formatted
  rcases sbAppendf_holds true h text with ⟨builder', heq, hle, hholds⟩ | ⟨hlt | hfail, heq⟩
  · rw [heq, if_pos hle]
    exact hholds
  · rw [heq, if_neg (by omega)]
    exact h
  · cases hfail

theorem nul_notMem_deployStatusText (success : Bool) {message deployLog : Bytes} (nowMs : ℤ)
    {projectName deployPath : Bytes} (hm : 0 ∉ message) (hl : 0 ∉ deployLog)
    (hp : 0 ∉ projectName) (hd : 0 ∉ deployPath) :
    0 ∉ deployStatusText success message deployLog nowMs projectName deployPath := by
  have hbool : (0 : UInt8) ∉ (if success then ascii "true" else ascii "false") := by
    cases success <;> decide
  simp only [deployStatusText, List.mem_append, not_or]
  exact ⟨by decide, hbool, by decide, hm, by decide, hl, by decide, nul_notMem_decimal nowMs,
    by decide, hp, by decide, hd, by decide⟩

/-- With every allocation granted the record is posted; a text beyond `INT_MAX` is
dropped at either level. -/
theorem deployReportStatus_posts (success : Bool) {message deployLog : Bytes} (nowMs : ℤ)
    {projectName deployPath : Bytes} (hm : 0 ∉ message) (hl : 0 ∉ deployLog)
    (hp : 0 ∉ projectName) (hd : 0 ∉ deployPath) :
    deployReportStatus (fun _ => true) success message deployLog projectName deployPath nowMs =
      .posted (formatted (deployParamsText (escape (formatted
        (deployStatusText success (escape message) (escape deployLog) nowMs (escape projectName)
          (escape deployPath)))))) := by
  obtain ⟨builder, hinit, hempty⟩ := sbInit_holds 1024
  have hstatus := sbAppendf_formatted hempty (deployStatusText success (escape message)
    (escape deployLog) nowMs (escape projectName) (escape deployPath))
  have hnul := nul_notMem_formatted (nul_notMem_deployStatusText success nowMs
    (nul_notMem_escape hm) (nul_notMem_escape hl) (nul_notMem_escape hp) (nul_notMem_escape hd))
  generalize formatted (deployStatusText success (escape message) (escape deployLog) nowMs
    (escape projectName) (escape deployPath)) = status at hstatus hnul ⊢
  have hparams := sbAppendf_formatted hempty (deployParamsText (escape status))
  have hnul' : 0 ∉ deployParamsText (escape status) := by
    simp only [deployParamsText, List.mem_append, not_or]
    exact ⟨by decide, nul_notMem_escape hnul, by decide⟩
  have hfit : (escape status).length + 1 <
      (List.replicate (status.length * 2 + 32) (0 : UInt8)).length := by
    have := escape_length_le status
    rw [List.length_replicate]
    omega
  simp only [deployReportStatus, hinit, escapeAlloc_eq hm, escapeAlloc_eq hl, escapeAlloc_eq hp,
    escapeAlloc_eq hd, if_true, ne_eq, not_true_eq_false, if_false, hstatus.cstr hnul,
    hstatus.length_eq, jsonEscapeString_of_fits hfit, cstr_store_zero (nul_notMem_escape hnul),
    hparams.cstr (nul_notMem_formatted hnul')]

/-! ## What is read back -/

/-- In `text` the member `key` reads as `value`, whatever buffer with room for it is
handed to the getter. -/
def ReadsAs (text key value : Bytes) : Prop :=
  ∀ out : Bytes, value.length < out.length →
    (jsonGetString text key out).rc = 0 ∧ cstr (jsonGetString text key out).out = value

/-- A member written by `escape` is read back whole. -/
theorem readsAs_escaped {key : Bytes} (hk : SearchKey key) (doc : Doc .value) {value : Bytes}
    (hfound : firstNamed key doc.allMembers = some (.string (escapedLit value)))
    (hnul : 0 ∉ value) : ReadsAs doc.text key value := by
  intro out hlen
  have hout : out ≠ [] := List.ne_nil_of_length_pos (by omega)
  have hread := jsonGetString_doc hk Ws.none doc Ws.none hout
  rw [hfound] at hread
  have htext : doc.text = Ws.none.text ++ (doc.text ++ Ws.none.text) := by simp [Ws.none]
  rw [htext, hread]
  simp only [readString, escapedLit, decode_escape, copied, if_pos hlen]
  exact ⟨trivial, cstr_store_zero hnul⟩

/-- Such a member is what a getter with a fresh buffer yields. -/
theorem ReadsAs.value? {text key value : Bytes} (h : ReadsAs text key value) {size : ℕ}
    (hlen : value.length < size) : Extract.value? (jsonGetString text key) size = some value := by
  obtain ⟨hrc, hout⟩ := h (List.replicate size 0) (by rwa [List.length_replicate])
  rw [Extract.value?]
  simp only [hrc, if_true, hout]

theorem deployParams_readsAs {status : Bytes} (hs : 0 ∉ status) :
    ReadsAs (deployParamsText (escape status)) (ascii "deployStatus") status := by
  rw [← deployParamsDoc_text]
  exact readsAs_escaped (by decide) _ rfl hs

/-- None of the four texts can hide another or pass for one. -/
theorem deployStatus_readsAs (success : Bool) {message deployLog : Bytes} (nowMs : ℤ)
    {projectName deployPath : Bytes} (hm : 0 ∉ message) (hl : 0 ∉ deployLog)
    (hp : 0 ∉ projectName) (hd : 0 ∉ deployPath) :
    ∀ field ∈ [(ascii "message", message), (ascii "deployLog", deployLog),
        (ascii "projectName", projectName), (ascii "deployPath", deployPath)],
      ReadsAs (deployStatusText success (escape message) (escape deployLog) nowMs
        (escape projectName) (escape deployPath)) field.1 field.2 := by
  rw [← deployStatusDoc_text]
  simp only [List.forall_mem_cons, List.not_mem_nil, false_implies, implies_true, and_true]
  exact ⟨readsAs_escaped (by decide) _ rfl hm, readsAs_escaped (by decide) _ rfl hl,
    readsAs_escaped (by decide) _ rfl hp, readsAs_escaped (by decide) _ rfl hd⟩

/-- The whole record, with its texts escaped. -/
def deployStatus (success : Bool) (message deployLog : Bytes) (nowMs : ℤ)
    (projectName deployPath : Bytes) : Bytes :=
  deployStatusText success (escape message) (escape deployLog) nowMs (escape projectName)
    (escape deployPath)

/-- With its first allocation granted, the function frees nothing it has not
initialised. -/
theorem deployReportStatus_defined {alloc : ℕ → Bool} (h : alloc 0 = true) {success : Bool}
    {message deployLog projectName deployPath : Bytes} {nowMs : ℤ} :
    deployReportStatus alloc success message deployLog projectName deployPath nowMs ≠
      .undefinedFree := by
  obtain ⟨builder, hinit, -⟩ := sbInit_holds 1024
  simp only [deployReportStatus, h, hinit, ne_eq, not_true_eq_false, if_false]
  split
  · simp
  · split
    · split
      · split <;> simp
      · simp
    · simp

/-- A record that `vsnprintf` can measure is posted whole. -/
theorem deployReportStatus_whole (success : Bool) {message deployLog : Bytes} (nowMs : ℤ)
    {projectName deployPath : Bytes} (hm : 0 ∉ message) (hl : 0 ∉ deployLog)
    (hp : 0 ∉ projectName) (hd : 0 ∉ deployPath)
    (hmax : (deployParamsText (escape (deployStatus success message deployLog nowMs projectName
      deployPath))).length ≤ INT_MAX) :
    deployReportStatus (fun _ => true) success message deployLog projectName deployPath nowMs =
      .posted (deployParamsText (escape (deployStatus success message deployLog nowMs projectName
        deployPath))) := by
  have hstatus : (deployStatus success message deployLog nowMs projectName deployPath).length ≤
      INT_MAX := by
    have h := length_le_escape (deployStatus success message deployLog nowMs projectName deployPath)
    simp only [deployParamsText, List.length_append] at hmax
    omega
  rw [deployReportStatus_posts success nowMs hm hl hp hd]
  change ReportOutcome.posted (formatted (deployParamsText (escape (formatted
    (deployStatus success message deployLog nowMs projectName deployPath))))) = _
  rw [formatted, formatted, if_pos hstatus, if_pos hmax]

/-- The `success` of the status object inside a posted record. -/
def deployStatusSuccess (post : Bytes) : Option Bytes :=
  (Extract.value? (jsonGetString post (ascii "deployStatus")) (post.length + 1)).bind fun status =>
    Extract.value? (jsonGetRawValue status (ascii "success")) (status.length + 1)

theorem deployStatusSuccess_posted (success : Bool) {message deployLog : Bytes} (nowMs : ℤ)
    {projectName deployPath : Bytes} (hm : 0 ∉ message) (hl : 0 ∉ deployLog)
    (hp : 0 ∉ projectName) (hd : 0 ∉ deployPath) :
    deployStatusSuccess (deployParamsText (escape (deployStatus success message deployLog nowMs
      projectName deployPath))) = some (if success then ascii "true" else ascii "false") := by
  have hnul : 0 ∉ deployStatus success message deployLog nowMs projectName deployPath :=
    nul_notMem_deployStatusText success nowMs (nul_notMem_escape hm) (nul_notMem_escape hl)
      (nul_notMem_escape hp) (nul_notMem_escape hd)
  have hdoc := deployStatusDoc_text success message deployLog nowMs projectName deployPath
  change _ = deployStatus success message deployLog nowMs projectName deployPath at hdoc
  generalize deployStatus success message deployLog nowMs projectName deployPath = status
    at hnul hdoc ⊢
  have hlen : status.length < (deployParamsText (escape status)).length + 1 := by
    have := length_le_escape status
    simp only [deployParamsText, List.length_append]
    omega
  have hkey : SearchKey (ascii "success") := by decide
  have hfound : firstNamed (ascii "success") (deployStatusDoc success message deployLog nowMs
      projectName deployPath).allMembers = some (.scalar (boolScalar success)) := rfl
  have hout : List.replicate (status.length + 1) (0 : UInt8) ≠ [] :=
    replicate_ne_nil (Nat.succ_pos _)
  have hread := jsonGetRawValue_doc hkey .none (deployStatusDoc success message deployLog nowMs
    projectName deployPath) .none hout
  rw [← doc_text_eq, hdoc, hfound] at hread
  rw [deployStatusSuccess, (deployParams_readsAs hnul).value? hlen, Option.bind_some]
  refine value?_copiedWhole ?_ ?_ hread
  · cases success <;> decide
  · have h₁ : (boolScalar success).text.length ≤ 5 := by cases success <;> decide
    have h₂ : (ascii ",\"message\":\"").length = 12 := rfl
    rw [← hdoc, deployStatusDoc_text, deployStatusText]
    simp only [List.length_append, h₂]
    omega

/-- What `deploy_report_status` encodes is decoded again: no buffer is too small, the
posted property yields the status object, and the object yields the four texts. -/
theorem deployStatus_roundTrip (success : Bool) {message deployLog : Bytes} (nowMs : ℤ)
    {projectName deployPath : Bytes} (hm : 0 ∉ message) (hl : 0 ∉ deployLog)
    (hp : 0 ∉ projectName) (hd : 0 ∉ deployPath)
    (hmax : (deployParamsText (escape (deployStatus success message deployLog nowMs projectName
      deployPath))).length ≤ INT_MAX) :
    let status := deployStatus success message deployLog nowMs projectName deployPath
    (∀ text ∈ [message, deployLog, projectName, deployPath, status],
      jsonEscapeString text (List.replicate (text.length * 2 + 32) 0) =
        ⟨0, store (List.replicate (text.length * 2 + 32) 0) 0 (escape text ++ [0])⟩) ∧
    deployReportStatus (fun _ => true) success message deployLog projectName deployPath nowMs =
      .posted (deployParamsText (escape status)) ∧
    ReadsAs (deployParamsText (escape status)) (ascii "deployStatus") status ∧
    ∀ field ∈ [(ascii "message", message), (ascii "deployLog", deployLog),
      (ascii "projectName", projectName), (ascii "deployPath", deployPath)],
      ReadsAs status field.1 field.2 := by
  intro status
  refine ⟨fun text _ => jsonEscapeString_of_fits ?_,
    deployReportStatus_whole success nowMs hm hl hp hd hmax, ?_, ?_⟩
  · have := escape_length_le text
    rw [List.length_replicate]
    omega
  · exact deployParams_readsAs (nul_notMem_deployStatusText success nowMs (nul_notMem_escape hm)
      (nul_notMem_escape hl) (nul_notMem_escape hp) (nul_notMem_escape hd))
  · exact deployStatus_readsAs success nowMs hm hl hp hd

theorem deployStatus_roundTrip_quotes :
    deployReportStatus (fun _ => true) true (ascii "a\",\"deployLog\":\"b") [] [] [] 0 =
      .posted (deployParamsText (escape (deployStatus true (ascii "a\",\"deployLog\":\"b") [] 0
        [] []))) ∧
    ReadsAs (deployStatus true (ascii "a\",\"deployLog\":\"b") [] 0 [] []) (ascii "deployLog") [] := by
  have hm : 0 ∉ ascii "a\",\"deployLog\":\"b" := by decide
  have hnil : (0 : UInt8) ∉ [] := by simp
  have h := deployStatus_roundTrip true 0 hm hnil hnil hnil (by decide +kernel)
  exact ⟨h.2.1, h.2.2.2 _ (List.mem_cons_of_mem _ (List.mem_cons_self ..))⟩

/-- A status object that `vsnprintf` cannot measure is posted as an empty string. -/
theorem deployReportStatus_oversized (success : Bool) {message deployLog : Bytes} (nowMs : ℤ)
    {projectName deployPath : Bytes} (hm : 0 ∉ message) (hl : 0 ∉ deployLog)
    (hp : 0 ∉ projectName) (hd : 0 ∉ deployPath)
    (hbig : INT_MAX <
      (deployStatus success message deployLog nowMs projectName deployPath).length) :
    deployReportStatus (fun _ => true) success message deployLog projectName deployPath nowMs =
      .posted (deployParamsText []) := by
  rw [deployReportStatus_posts success nowMs hm hl hp hd]
  change ReportOutcome.posted (formatted (deployParamsText (escape (formatted
    (deployStatus success message deployLog nowMs projectName deployPath))))) = _
  have hempty : formatted (deployStatus success message deployLog nowMs projectName deployPath) = [] :=
    if_neg (by omega)
  rw [hempty]
  rfl

/-- A message of `2 ^ 31` bytes is lost with the rest of its record. -/
theorem deployStatus_lost :
    0 ∉ List.replicate (2 ^ 31) (97 : UInt8) ∧
    deployReportStatus (fun _ => true) true (List.replicate (2 ^ 31) 97) [] [] [] 0 =
      .posted (deployParamsText []) ∧
    ReadsAs (deployParamsText []) (ascii "deployStatus") [] ∧
    deployStatus true (List.replicate (2 ^ 31) 97) [] 0 [] [] ≠ [] := by
  have hnul : (0 : UInt8) ∉ List.replicate (2 ^ 31) (97 : UInt8) := fun h =>
    absurd (List.eq_of_mem_replicate h) (by decide)
  have hnil : (0 : UInt8) ∉ [] := by simp
  have hlen : 2 ^ 31 ≤ (escape (List.replicate (2 ^ 31) (97 : UInt8))).length := by
    have h := length_le_escape (List.replicate (2 ^ 31) (97 : UInt8))
    rwa [List.length_replicate] at h
  have hbig : INT_MAX < (deployStatus true (List.replicate (2 ^ 31) 97) [] 0 [] []).length := by
    simp only [deployStatus, deployStatusText, List.length_append, INT_MAX]
    omega
  refine ⟨hnul, deployReportStatus_oversized true 0 hnul (by simp) (by simp) (by simp) hbig,
    deployParams_readsAs hnil, fun h => ?_⟩
  rw [h] at hbig
  exact absurd hbig (by decide)

end IotIde
