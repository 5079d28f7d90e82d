import IotIde.Deploy.Manager
import IotIde.Foundation.ShellWords

/-!
# What the shell is given

The two commands of a worker are fixed scripts into which texts of the request are put,
between quotes.

* `run_shellQuote` — a quoted text is one word, with every byte of it quoted;
* `downloadScript`, `extractScript` — the scripts, as the shell should read them;
* `downloadCommand_eq`, `extractCommand_eq` — the commands are never cut;
* `only_words` — the shell reads the scripts, and of the request nothing but those words.
-/

namespace IotIde

open CText ShellWords

/-! ## One word -/

theorem run_singleQuoteEscape (w : Word) :
    run (.single w) singleQuoteEscape = some ([], .single (w ++ [(singleQuote, true)])) := by
  have hescape : singleQuoteEscape = [apostrophe, quote, apostrophe, quote, apostrophe] := rfl
  have hquoted : step (.double w) apostrophe = some ([], .double (w ++ [(apostrophe, true)])) := rfl
  -- out of the quotes, a quoted quote, and into them again
  rw [hescape]
  exact run_cons (step_close_single w) (run_cons (step_open_double w) (run_cons hquoted
    (run_cons (step_close_double _) (run_cons (step_open_single _) rfl))))

theorem run_quotedBody (input : Bytes) (w : Word) :
    run (.single w) (quotedBody input) = some ([], .single (w ++ input.map (·, true))) := by
  induction input generalizing w with
  | nil => rw [List.map_nil, List.append_nil]; rfl
  | cons c input ih =>
    rw [quotedBody, List.flatMap_cons, ← quotedBody]
    by_cases hc : c = singleQuote
    · rw [if_pos hc, run_append (run_singleQuoteEscape w) (ih _), hc, List.append_assoc]
      rfl
    · have hc' : apostrophe ∉ [c] := by simpa using Ne.symm hc
      have hone := run_single hc' w
      rw [if_neg hc, run_append hone (ih _), List.append_assoc]
      rfl

/-- A quoted text is one word, quoted throughout. -/
theorem run_shellQuote {input quotedText : Bytes} {outSize : ℕ}
    (h : shellQuote input outSize = some quotedText) :
    run .blank quotedText = some ([], .word (input.map (·, true))) := by
  obtain ⟨rfl, -⟩ := shellQuote_eq_some h
  have hopen : run .blank [singleQuote] = some ([], .single []) := rfl
  have hclose : ∀ w, run (.single w) [singleQuote] = some ([], .word w) := fun w =>
    run_cons (step_close_single w) rfl
  exact run_append hopen (run_append (run_quotedBody input []) (hclose _))

theorem nul_notMem_shellQuote {input quotedText : Bytes} {outSize : ℕ} (hinput : 0 ∉ input)
    (h : shellQuote input outSize = some quotedText) : 0 ∉ quotedText := by
  obtain ⟨rfl, -⟩ := shellQuote_eq_some h
  have hbody : 0 ∉ quotedBody input := by
    intro hmem
    obtain ⟨c, hc, hzero⟩ := List.mem_flatMap.1 hmem
    split at hzero
    · exact absurd hzero (by decide)
    · rw [List.mem_singleton] at hzero
      exact hinput (hzero ▸ hc)
  simp only [List.mem_cons, List.mem_append, List.not_mem_nil, or_false, not_or]
  exact ⟨by decide, hbody, by decide⟩

/-! ## The scripts -/

/-- `if command -v <tool> >/dev/null 2>&1; then` -/
def whenFound (tool : Bytes) : List Token :=
  [plain (ascii "command"), plain (ascii "-v"), plain tool, .operator [greater],
    plain (ascii "/dev/null"), .ioNumber (ascii "2"), .operator [greater, ampersand],
    plain (ascii "1"), .operator [semicolon], plain (ascii "then")]

/-- `else echo <complaint> >&2; exit 127; fi`, behind a command. -/
def orElseFail (complaint : Bytes) : List Token :=
  [.operator [semicolon], plain (ascii "else"), plain (ascii "echo"), quoted complaint,
    .operator [greater, ampersand], plain (ascii "2"), .operator [semicolon], plain (ascii "exit"),
    plain (ascii "127"), .operator [semicolon]]

/-- The download, with the path of the archive and the URL as words. -/
def downloadScript (zipPath url : Bytes) : List Token :=
  (plain (ascii "if") :: (whenFound (ascii "curl") ++
    [plain (ascii "curl"), plain (ascii "-L"), plain (ascii "--fail"), plain (ascii "-o")])) ++
  quoted zipPath :: ([] ++ quoted url ::
    ((.operator [semicolon] :: plain (ascii "elif") :: (whenFound (ascii "wget") ++
      [plain (ascii "wget"), plain (ascii "-O")])) ++
  quoted zipPath :: ([] ++ quoted url ::
    (orElseFail (ascii "curl or wget is required for deployProject") ++ [plain (ascii "fi")]))))

/-- The extraction, with the paths of the archive and of the target as words. -/
def extractScript (zipPath targetPath : Bytes) : List Token :=
  (plain (ascii "if") :: (whenFound (ascii "unzip") ++
    [plain (ascii "unzip"), plain (ascii "-oq")])) ++
  quoted zipPath :: ([plain (ascii "-d")] ++ quoted targetPath ::
    ((.operator [semicolon] :: plain (ascii "elif") :: (whenFound (ascii "busybox") ++
      [plain (ascii "busybox"), plain (ascii "unzip"), plain (ascii "-o")])) ++
  quoted zipPath :: ([plain (ascii "-d")] ++ quoted targetPath ::
    (orElseFail (ascii "unzip or busybox unzip is required for deployProject") ++
      [plain (ascii "fi")]))))

/-! ## The commands -/

/-- The text of the download command. -/
def downloadText (quotedZip quotedUrl : Bytes) : Bytes :=
  ascii "if command -v curl >/dev/null 2>&1; then curl -L --fail -o " ++
    (quotedZip ++ (ascii " " ++ (quotedUrl ++
      (ascii "; elif command -v wget >/dev/null 2>&1; then wget -O " ++
        (quotedZip ++ (ascii " " ++ (quotedUrl ++
          ascii "; else echo 'curl or wget is required for deployProject' >&2; exit 127; fi")))))))

/-- The text of the extraction command. -/
def extractText (quotedZip quotedTarget : Bytes) : Bytes :=
  ascii "if command -v unzip >/dev/null 2>&1; then unzip -oq " ++
    (quotedZip ++ (ascii " -d " ++ (quotedTarget ++
      (ascii "; elif command -v busybox >/dev/null 2>&1; then busybox unzip -o " ++
        (quotedZip ++ (ascii " -d " ++ (quotedTarget ++
          ascii ("; else echo 'unzip or busybox unzip is required for deployProject' >&2; " ++
            "exit 127; fi"))))))))

section Commands

variable {quotedZip quotedUrl quotedTarget zipPath url targetPath : Bytes}

/-- Two quoted texts leave most of the command's array free. -/
theorem downloadCommand_eq (hzip : quotedZip.length < PATH_MAX * 2)
    (hurl : quotedUrl.length < 2048) :
    downloadCommand quotedZip quotedUrl = downloadText quotedZip quotedUrl := by
  refine snprintf_of_lt ?_
  have h₁ : (ascii "if command -v curl >/dev/null 2>&1; then curl -L --fail -o ").length = 59 := rfl
  have h₂ : (ascii " ").length = 1 := rfl
  have h₃ : (ascii "; elif command -v wget >/dev/null 2>&1; then wget -O ").length = 53 := rfl
  have h₄ :
      (ascii "; else echo 'curl or wget is required for deployProject' >&2; exit 127; fi").length =
        74 := by decide
  simp only [List.length_append, h₁, h₂, h₃, h₄]
  simp only [PATH_MAX] at hzip
  omega

theorem extractCommand_eq (hzip : quotedZip.length < PATH_MAX * 2)
    (htarget : quotedTarget.length < PATH_MAX * 2) :
    extractCommand quotedZip quotedTarget = extractText quotedZip quotedTarget := by
  refine snprintf_of_lt ?_
  have h₁ : (ascii "if command -v unzip >/dev/null 2>&1; then unzip -oq ").length = 52 := rfl
  have h₂ : (ascii " -d ").length = 4 := rfl
  have h₃ : (ascii "; elif command -v busybox >/dev/null 2>&1; then busybox unzip -o ").length =
      65 := by decide
  have h₄ : (ascii ("; else echo 'unzip or busybox unzip is required for deployProject' >&2; " ++
      "exit 127; fi")).length = 84 := rfl
  simp only [List.length_append, h₁, h₂, h₃, h₄]
  simp only [PATH_MAX] at hzip htarget
  omega

theorem tokens_downloadText (hzip : run .blank quotedZip = some ([], .word (zipPath.map (·, true))))
    (hurl : run .blank quotedUrl = some ([], .word (url.map (·, true)))) :
    tokens (downloadText quotedZip quotedUrl) = some (downloadScript zipPath url) := by
  have hbreak : breaksWord semicolon = true := by decide
  have hbegin : beginToken semicolon = some (.operator [semicolon]) := by decide
  refine tokens_twice hzip hurl (by decide) (fun w => ?_) (fun w => ?_) (fun w => ?_)
  · exact run_word_break (b := 32) (by decide) (by decide) (s := .blank)
      (by decide) rfl
  · exact run_word_break hbreak (by decide) hbegin (by decide)
  · exact run_word_break hbreak (by decide) hbegin (by decide)

theorem tokens_extractText (hzip : run .blank quotedZip = some ([], .word (zipPath.map (·, true))))
    (htarget : run .blank quotedTarget = some ([], .word (targetPath.map (·, true)))) :
    tokens (extractText quotedZip quotedTarget) = some (extractScript zipPath targetPath) := by
  have hbreak : breaksWord semicolon = true := by decide
  have hbegin : beginToken semicolon = some (.operator [semicolon]) := by decide
  refine tokens_twice hzip htarget (by decide) (fun w => ?_) (fun w => ?_) (fun w => ?_)
  · exact run_word_break (b := 32) (by decide) (by decide) (s := .blank)
      (by decide) (by decide)
  · exact run_word_break hbreak (by decide) hbegin (by decide)
  · exact run_word_break hbreak (by decide) hbegin (by decide)

end Commands

/-! ## What is run -/

/-- The command is the whole of its text, without a NUL, and the shell reads the script
in it. -/
structure ShellReads (command text : Bytes) (script : List Token) : Prop where
  whole : command = text
  nulFree : 0 ∉ command
  reads : tokens command = some script

variable {job : DeployJob} {o : DeployOutcome}

/-- What `deploy_download_zip` runs, if it runs anything. -/
theorem stepDownload_reads (hurl : 0 ∉ job.task.downloadUrl) (hzip : 0 ∉ job.zipPath) :
    (stepDownload job o).launched = job.launched ∨
    ∃ quotedZip quotedUrl, (stepDownload job o).launched =
        job.launched ++ [(downloadCommand quotedZip quotedUrl, none)] ∧
      ShellReads (downloadCommand quotedZip quotedUrl) (downloadText quotedZip quotedUrl)
        (downloadScript job.zipPath job.task.downloadUrl) := by
  unfold stepDownload
  split
  · rename_i quotedUrl quotedZip hquotedUrl hquotedZip
    refine Or.inr ⟨quotedZip, quotedUrl, by dsimp only; split_ifs <;> rfl, ?_⟩
    have hwhole := downloadCommand_eq (shellQuote_eq_some hquotedZip).2
      (shellQuote_eq_some hquotedUrl).2
    refine ⟨hwhole, ?_, ?_⟩
    · have hzip' := nul_notMem_shellQuote hzip hquotedZip
      have hurl' := nul_notMem_shellQuote hurl hquotedUrl
      rw [hwhole, downloadText]
      simp only [List.mem_append, not_or]
      exact ⟨by decide, hzip', by decide, hurl', by decide, hzip', by decide, hurl',
        by decide⟩
    · rw [hwhole]
      exact tokens_downloadText (run_shellQuote hquotedZip) (run_shellQuote hquotedUrl)
  · exact Or.inl rfl

/-- What `deploy_extract_zip` runs, if it runs anything. -/
theorem stepExtract_reads (hzip : 0 ∉ job.zipPath) (htarget : 0 ∉ job.targetPath) :
    (stepExtract job o).launched = job.launched ∨
    ∃ quotedZip quotedTarget, (stepExtract job o).launched =
        job.launched ++ [(extractCommand quotedZip quotedTarget, none)] ∧
      ShellReads (extractCommand quotedZip quotedTarget) (extractText quotedZip quotedTarget)
        (extractScript job.zipPath job.targetPath) := by
  unfold stepExtract
  split
  · rename_i quotedZip quotedTarget hquotedZip hquotedTarget
    refine Or.inr ⟨quotedZip, quotedTarget, by dsimp only; split_ifs <;> rfl, ?_⟩
    have hwhole := extractCommand_eq (shellQuote_eq_some hquotedZip).2
      (shellQuote_eq_some hquotedTarget).2
    refine ⟨hwhole, ?_, ?_⟩
    · have hzip' := nul_notMem_shellQuote hzip hquotedZip
      have htarget' := nul_notMem_shellQuote htarget hquotedTarget
      rw [hwhole, extractText]
      simp only [List.mem_append, not_or]
      exact ⟨by decide, hzip', by decide, htarget', by decide, hzip', by decide,
        htarget', by decide⟩
    · rw [hwhole]
      exact tokens_extractText (run_shellQuote hquotedZip) (run_shellQuote hquotedTarget)
  · exact Or.inl rfl

/-- **Nothing but words of the request.**  Where `shell_quote` succeeds, its text is
complete and one word; and what a worker runs to download and to extract is the whole of
its command, in which the shell reads the fixed script with the URL and the paths as words
that are quoted throughout. -/
theorem only_words :
    (∀ (input : Bytes) (outSize : ℕ) (quotedText : Bytes), 0 ∉ input →
      shellQuote input outSize = some quotedText →
        0 ∉ quotedText ∧ quotedText.length < outSize ∧ tokens quotedText = some [quoted input]) ∧
    (∀ (job : DeployJob) (o : DeployOutcome), 0 ∉ job.task.downloadUrl → 0 ∉ job.zipPath →
      (stepDownload job o).launched = job.launched ∨
      ∃ quotedZip quotedUrl, (stepDownload job o).launched =
          job.launched ++ [(downloadCommand quotedZip quotedUrl, none)] ∧
        ShellReads (downloadCommand quotedZip quotedUrl) (downloadText quotedZip quotedUrl)
          (downloadScript job.zipPath job.task.downloadUrl)) ∧
    (∀ (job : DeployJob) (o : DeployOutcome), 0 ∉ job.zipPath → 0 ∉ job.targetPath →
      (stepExtract job o).launched = job.launched ∨
      ∃ quotedZip quotedTarget, (stepExtract job o).launched =
          job.launched ++ [(extractCommand quotedZip quotedTarget, none)] ∧
        ShellReads (extractCommand quotedZip quotedTarget) (extractText quotedZip quotedTarget)
          (extractScript job.zipPath job.targetPath)) := by
  refine ⟨fun input outSize quotedText hinput h => ?_, fun _ _ => stepDownload_reads,
    fun _ _ => stepExtract_reads⟩
  exact ⟨nul_notMem_shellQuote hinput h, (shellQuote_eq_some h).2,
    tokens_of_run (run_shellQuote h) rfl⟩

/-- A worker whose URL and paths hold quotes, spaces and commands of their own. -/
def hostileJob : DeployJob where
  task := ⟨ascii "http://h/a.zip';rm -rf /;'", ascii "/srv/a b", ascii "p", []⟩
  pc := .downloading
  log := ⟨[], 0, 0⟩
  zipPath := ascii "/srv/a b/$(x).zip"
  targetPath := ascii "/srv/a b/it's;y"
  download := none
  extract := none
  command := none
  launched := []
  posts := []

/-- Every call comes out well, and a command writes a line. -/
def servedWell : DeployOutcome := ⟨true, true, some 0, [ascii "done\n"], fun _ => true, 0⟩

theorem only_words_hostile :
    tokens (ascii "'it'\"'\"'s;$(x)'") = some [quoted (ascii "it's;$(x)")] ∧
    (∃ quotedZip quotedUrl, (stepDownload hostileJob servedWell).launched =
        [(downloadCommand quotedZip quotedUrl, none)] ∧
      ShellReads (downloadCommand quotedZip quotedUrl) (downloadText quotedZip quotedUrl)
        (downloadScript hostileJob.zipPath hostileJob.task.downloadUrl)) ∧
    ∃ quotedZip quotedTarget, (stepExtract hostileJob servedWell).launched =
        [(extractCommand quotedZip quotedTarget, none)] ∧
      ShellReads (extractCommand quotedZip quotedTarget) (extractText quotedZip quotedTarget)
        (extractScript hostileJob.zipPath hostileJob.targetPath) := by
  obtain ⟨hwords, hdownload, hextract⟩ := only_words
  refine ⟨?_, ?_, ?_⟩
  · exact (hwords (ascii "it's;$(x)") 2048 _ (by decide) (by decide)).2.2
  · have hran : (stepDownload hostileJob servedWell).launched ≠ [] := by decide +kernel
    exact (hdownload hostileJob servedWell (by decide +kernel)
      (by decide +kernel)).resolve_left hran
  · have hran : (stepExtract hostileJob servedWell).launched ≠ [] := by decide +kernel
    exact (hextract hostileJob servedWell (by decide +kernel)
      (by decide +kernel)).resolve_left hran

end IotIde
