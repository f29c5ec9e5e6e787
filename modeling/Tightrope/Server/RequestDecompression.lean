import Tightrope.Server.Decompression

namespace Tightrope.Server.Middleware

open Bytes Tightrope.Core Proxy Fallible StreamDecoding

section Correctness

structure Encoders where
  gzip : Bytes → Bytes → Prop
  deflate : Bytes → Bytes → Prop
  zstd : Bytes → Bytes → Prop
  brotli : Bytes → Bytes → Prop

def ZstdCode.GoesOn (code : ZstdCode) : Prop := ∃ hint, code = .remaining (hint + 1)

/-- The libraries decode what the encoders give, by their documented codes, into a buffer of the size the loops have. -/
structure CorrectCodecs (codecs : Codecs) (encoders : Encoders) where
  gzip : Contract codecs.gzip (· = .ok) (· = .streamEnd) bufferSize encoders.gzip
  deflate : Contract codecs.deflate (· = .ok) (· = .streamEnd) bufferSize encoders.deflate
  zstd : ∀ decoder, codecs.zstd = some decoder →
    Contract decoder ZstdCode.GoesOn (· = .remaining 0) bufferSize encoders.zstd
  brotli : ∀ decoder, codecs.brotli = some decoder →
    Contract decoder (· = .needsMoreOutput) (· = .success) bufferSize encoders.brotli

def KeepsInput (decoder : StreamDecoder ZstdCode) (form : Bytes) : Prop :=
  ∀ state left, Reaches zstdDriver decoder form state left → (decoder.call state left).code.GoesOn →
    left.drop (decoder.call state left).consumed ≠ []

inductive EncodedBy (codecs : Codecs) (encoders : Encoders) (maxSize : ℕ) : Bytes → Bytes → Bytes → Prop
  | identity {payload : Bytes} : EncodedBy codecs encoders maxSize identityName payload payload
  | gzip {payload form : Bytes} (hencodes : encoders.gzip payload form) (hsize : payload.length ≤ maxSize)
      (hform : form.length < 2 ^ 32) : EncodedBy codecs encoders maxSize gzipName payload form
  | deflate {payload form : Bytes} (hencodes : encoders.deflate payload form) (hsize : payload.length ≤ maxSize)
      (hform : form.length < 2 ^ 32) : EncodedBy codecs encoders maxSize deflateName payload form
  | zstd {payload form : Bytes} {decoder : StreamDecoder ZstdCode} (hbuilt : codecs.zstd = some decoder)
      (hencodes : encoders.zstd payload form) (hsize : payload.length ≤ maxSize) (hform : form ≠ [])
      (hkeeps : KeepsInput decoder form) : EncodedBy codecs encoders maxSize zstdName payload form
  | brotli {payload form : Bytes} {decoder : StreamDecoder BrotliCode} (hbuilt : codecs.brotli = some decoder)
      (hencodes : encoders.brotli payload form) (hsize : payload.length ≤ maxSize) :
      EncodedBy codecs encoders maxSize brotliName payload form

/-- A payload encoded by one encoding after the other. -/
inductive Encoded (codecs : Codecs) (encoders : Encoders) (maxSize : ℕ) : List Bytes → Bytes → Bytes → Prop
  | plain {payload : Bytes} : Encoded codecs encoders maxSize [] payload payload
  | encoding {encoding payload form body : Bytes} {encodings : List Bytes}
      (hfirst : EncodedBy codecs encoders maxSize encoding payload form)
      (hrest : Encoded codecs encoders maxSize encodings form body) :
      Encoded codecs encoders maxSize (encoding :: encodings) payload body

end Correctness

section Decoding

variable {codecs : Codecs} {encoders : Encoders} {maxSize : ℕ} {input payload form body encoding result : Bytes}
  {encodings : List Bytes}

theorem decompressOne_identity : decompressOne codecs input identityName maxSize = .ok input := rfl

theorem decompressOne_gzip :
    decompressOne codecs input gzipName maxSize = inflateWithWindowBits codecs.gzip input maxSize := by
  unfold decompressOne
  cases codecs.zstd <;> cases codecs.brotli <;> rfl

theorem decompressOne_deflate :
    decompressOne codecs input deflateName maxSize = inflateWithWindowBits codecs.deflate input maxSize := by
  unfold decompressOne
  cases codecs.zstd <;> cases codecs.brotli <;> rfl

theorem decompressOne_zstd {decoder : StreamDecoder ZstdCode} (hbuilt : codecs.zstd = some decoder) :
    decompressOne codecs input zstdName maxSize = decompressZstd decoder input maxSize := by
  unfold decompressOne
  rw [hbuilt]
  rfl

theorem decompressOne_brotli {decoder : StreamDecoder BrotliCode} (hbuilt : codecs.brotli = some decoder) :
    decompressOne codecs input brotliName maxSize = decompressBrotli decoder input maxSize := by
  unfold decompressOne
  rw [hbuilt]
  cases codecs.zstd <;> rfl

theorem driveFrom_of_encodes {Code : Type} {driver : Driver Code DecompressError} {decoder : StreamDecoder Code}
    {goesOn ended : Code → Prop} {Encodes : Bytes → Bytes → Prop} (unmade : String)
    (contract : Contract decoder goesOn ended bufferSize Encodes) (hfollows : Follows driver decoder goesOn ended form)
    (hencodes : Encodes payload form) (hsize : payload.length ≤ maxSize) :
    driveFrom driver decoder unmade form maxSize = .ok payload := by
  obtain ⟨state, hstart, hdrive⟩ := drive_of_encodes contract hencodes hfollows hsize (Nat.lt_succ_self _)
  unfold driveFrom
  rw [hstart]
  exact hdrive

theorem driveFrom_eq_drive {Code : Type} {driver : Driver Code DecompressError} {decoder : StreamDecoder Code}
    {unmade : String} {state : decoder.State} {fuel : ℕ} (hprogress : Progresses driver decoder)
    (hstart : decoder.start = some state) (hfuel : input.length + maxSize < fuel) :
    driveFrom driver decoder unmade input maxSize = drive driver decoder maxSize fuel state input [] := by
  unfold driveFrom
  rw [hstart]
  exact drive_fuel hprogress (Nat.zero_le _) (Nat.lt_succ_self _) hfuel

theorem follows_zlib (decoder : StreamDecoder ZlibCode) (form : Bytes) :
    Follows zlibDriver decoder (· = .ok) (· = .streamEnd) form where
  broken _ _ := rfl
  ended := by
    rintro code rfl
    rfl
  goesOn state left _ hcode := by rw [hcode]; rfl

theorem inflate_of_encodes {decoder : StreamDecoder ZlibCode} {Encodes : Bytes → Bytes → Prop}
    (contract : Contract decoder (· = .ok) (· = .streamEnd) bufferSize Encodes) (hencodes : Encodes payload form)
    (hsize : payload.length ≤ maxSize) (hform : form.length < 2 ^ 32) :
    inflateWithWindowBits decoder form maxSize = .ok payload := by
  unfold inflateWithWindowBits
  rw [Nat.mod_eq_of_lt hform, List.take_length]
  exact driveFrom_of_encodes _ contract (follows_zlib decoder form) hencodes hsize

theorem follows_zstd {decoder : StreamDecoder ZstdCode} (hkeeps : KeepsInput decoder form) :
    Follows zstdDriver decoder ZstdCode.GoesOn (· = .remaining 0) form where
  broken := by
    rintro code (⟨hint, rfl⟩ | rfl) <;> rfl
  ended := by
    rintro code rfl
    rfl
  goesOn state left hreach hcode := if_pos (hkeeps state left hreach hcode)

theorem decompressZstd_of_encodes {decoder : StreamDecoder ZstdCode} {Encodes : Bytes → Bytes → Prop}
    (contract : Contract decoder ZstdCode.GoesOn (· = .remaining 0) bufferSize Encodes)
    (hencodes : Encodes payload form)
    (hsize : payload.length ≤ maxSize) (hform : form ≠ []) (hkeeps : KeepsInput decoder form) :
    decompressZstd decoder form maxSize = .ok payload := by
  unfold decompressZstd
  rw [if_neg fun h => hform h.2]
  exact driveFrom_of_encodes _ contract (follows_zstd hkeeps) hencodes hsize

theorem follows_brotli (decoder : StreamDecoder BrotliCode) (form : Bytes) :
    Follows brotliDriver decoder (· = .needsMoreOutput) (· = .success) form where
  broken _ _ := rfl
  ended := by
    rintro code rfl
    rfl
  goesOn state left _ hcode := by rw [hcode]; rfl

theorem decompressBrotli_of_encodes {decoder : StreamDecoder BrotliCode} {Encodes : Bytes → Bytes → Prop}
    (contract : Contract decoder (· = .needsMoreOutput) (· = .success) bufferSize Encodes)
    (hencodes : Encodes payload form) (hsize : payload.length ≤ maxSize) :
    decompressBrotli decoder form maxSize = .ok payload :=
  driveFrom_of_encodes _ contract (follows_brotli decoder form) hencodes hsize

theorem decompressOne_of_encodedBy (correct : CorrectCodecs codecs encoders)
    (h : EncodedBy codecs encoders maxSize encoding payload form) :
    decompressOne codecs form encoding maxSize = .ok payload := by
  cases h with
  | identity => exact decompressOne_identity
  | gzip hencodes hsize hform =>
    rw [decompressOne_gzip]
    exact inflate_of_encodes correct.gzip hencodes hsize hform
  | deflate hencodes hsize hform =>
    rw [decompressOne_deflate]
    exact inflate_of_encodes correct.deflate hencodes hsize hform
  | zstd hbuilt hencodes hsize hform hkeeps =>
    rw [decompressOne_zstd hbuilt]
    exact decompressZstd_of_encodes (correct.zstd _ hbuilt) hencodes hsize hform hkeeps
  | brotli hbuilt hencodes hsize =>
    rw [decompressOne_brotli hbuilt]
    exact decompressBrotli_of_encodes (correct.brotli _ hbuilt) hencodes hsize

theorem decompressAll_cons : decompressAll codecs (encoding :: encodings) body maxSize =
    (decompressAll codecs encodings body maxSize >>= fun form => decompressOne codecs form encoding maxSize) := by
  unfold decompressAll
  rw [List.reverse_cons, List.foldlM_append]
  exact bind_congr fun form => bind_pure _

theorem decompressAll_of_encoded (correct : CorrectCodecs codecs encoders)
    (h : Encoded codecs encoders maxSize encodings payload body) :
    decompressAll codecs encodings body maxSize = .ok payload := by
  induction h with
  | plain => rfl
  | encoding hfirst hrest ih =>
    rw [decompressAll_cons, ih]
    exact decompressOne_of_encodedBy correct hfirst

end Decoding

section Limits

variable {codecs : Codecs} {maxSize : ℕ} {input body encoding result : Bytes} {encodings : List Bytes}

theorem driveFrom_eq_ok {Code : Type} {driver : Driver Code DecompressError} {decoder : StreamDecoder Code}
    {unmade : String} (h : driveFrom driver decoder unmade input maxSize = .ok result) :
    ∃ state, decoder.start = some state ∧
      drive driver decoder maxSize (input.length + maxSize + 1) state input [] = .ok result := by
  unfold driveFrom at h
  split at h
  · cases h
  · next state hstart => exact ⟨state, hstart, h⟩

theorem length_le_of_driveFrom {Code : Type} {driver : Driver Code DecompressError} {decoder : StreamDecoder Code}
    {unmade : String} (h : driveFrom driver decoder unmade input maxSize = .ok result) : result.length ≤ maxSize := by
  obtain ⟨state, -, hdrive⟩ := driveFrom_eq_ok h
  exact length_le_of_drive hdrive (Nat.zero_le _)

theorem driveFrom_of_decompressZstd {decoder : StreamDecoder ZstdCode}
    (h : decompressZstd decoder input maxSize = .ok result) :
    driveFrom zstdDriver decoder "zstd context allocation failed" input maxSize = .ok result := by
  unfold decompressZstd at h
  split_ifs at h
  exact h

theorem length_le_of_decompressOne (h : decompressOne codecs input encoding maxSize = .ok result)
    (hencoding : encoding ≠ identityName) : result.length ≤ maxSize := by
  unfold decompressOne at h
  rw [if_neg hencoding] at h
  split at h
  · exact length_le_of_driveFrom (driveFrom_of_decompressZstd h)
  · split at h
    · exact length_le_of_driveFrom h
    · split_ifs at h
      · exact length_le_of_driveFrom h
      · exact length_le_of_driveFrom h

theorem length_le_of_decompressAll (h : decompressAll codecs encodings body maxSize = .ok result)
    (hencodings : ∃ encoding ∈ encodings, encoding ≠ identityName) : result.length ≤ maxSize := by
  induction encodings generalizing result with
  | nil =>
    obtain ⟨encoding, hmem, -⟩ := hencodings
    cases hmem
  | cons encoding encodings ih =>
    rw [decompressAll_cons] at h
    obtain ⟨form, hform, hresult⟩ := bind_eq_ok.mp h
    by_cases hidentity : encoding = identityName
    · subst hidentity
      cases hresult
      obtain ⟨other, hmem, hother⟩ := hencodings
      exact ih hform ⟨other, (List.mem_cons.mp hmem).resolve_left hother, hother⟩
    · exact length_le_of_decompressOne hresult hidentity

theorem zstd_takes_all {decoder : StreamDecoder ZstdCode} (h : decompressZstd decoder input maxSize = .ok result) :
    ∃ state left, Reaches zstdDriver decoder input state left ∧ (decoder.call state left).code = .remaining 0 ∧
      left.drop (decoder.call state left).consumed = [] := by
  obtain ⟨start, hstart, hdrive⟩ := driveFrom_eq_ok (driveFrom_of_decompressZstd h)
  obtain ⟨state, left, hreach, hfinished⟩ := finished_of_drive (.start hstart) hdrive
  refine ⟨state, left, hreach, ?_⟩
  simp only [zstdDriver, ite_not] at hfinished
  split_ifs at hfinished with hleft
  split at hfinished
  · next hcode => exact ⟨hcode, hleft⟩
  · cases hfinished

end Limits

section Headers

variable {order : IterationOrder} {headers : HeaderMap} {header : Bytes × Bytes} {size : Bytes}

theorem mem_stripContentEncodingHeaders : header ∈ stripContentEncodingHeaders order headers size ↔
    header = (contentLengthName, size) ∨
      (header ∈ headers ∧ equalsCaseInsensitive header.1 contentEncodingName = false ∧
      equalsCaseInsensitive header.1 contentLengthName = false) := by
  unfold stripContentEncodingHeaders
  by_cases hname : header.1 = contentLengthName
  · have hlength : equalsCaseInsensitive header.1 contentLengthName = true :=
      equalsCaseInsensitive_iff.mpr (congrArg toLowerAscii hname)
    rw [hlength, ← mem_assign_self, and_iff_left hname, or_iff_left]
    rintro ⟨-, -, hother⟩
    cases hother
  · rw [mem_assign_iff_of_ne hname, IterationOrder.mem_arrange, List.mem_filter, Bool.and_eq_true, Bool.not_eq_true',
      Bool.not_eq_true', or_iff_right]
    rintro rfl
    exact hname rfl

end Headers

section Exactness

variable {order : IterationOrder} {codecs : Codecs} {encoders : Encoders} {headers : HeaderMap} {maxSize : ℕ}
  {payload body : Bytes} {encodings : List Bytes}

/-- A request whose body is decompressed, with the headers that belong to what came out. -/
structure Replaced (headers : HeaderMap) (result : DecompressionResult) (payload : Bytes) : Prop where
  ok : result.ok = true
  status : result.status = 200
  body : result.body = payload
  mem_headers : ∀ header, header ∈ result.headers ↔ header = (contentLengthName, decimal payload.length) ∨
    (header ∈ headers ∧ equalsCaseInsensitive header.1 contentEncodingName = false ∧
      equalsCaseInsensitive header.1 contentLengthName = false)

theorem replaced_decompressed (payload : Bytes) : Replaced headers (decompressed order headers payload) payload where
  ok := rfl
  status := rfl
  body := rfl
  mem_headers _ := mem_stripContentEncodingHeaders

/-- What the body is taken for where only `identity` is declared and the content type is JSON. -/
def sniffed (codecs : Codecs) (headers : HeaderMap) (maxSize : ℕ) (payload : Bytes) : Bytes :=
  (maybeDecompressUndeclaredJsonBody codecs payload headers maxSize).getD payload

theorem parseContentEncodings_nil : parseContentEncodings [] = [] := rfl

theorem decompressRequestBody_of_declared
    (hdeclared : parseContentEncodings (findHeader headers contentEncodingName) = encodings) (hsome : encodings ≠ []) :
    decompressRequestBody order codecs body headers maxSize =
      match decompressAll codecs encodings body maxSize with
      | .error error => refused error
      | .ok payload => decompressed order headers
          (if encodings.all (· = identityName) then sniffed codecs headers maxSize payload else payload) := by
  have hheader : findHeader headers contentEncodingName ≠ [] := by
    intro hempty
    rw [hempty, parseContentEncodings_nil] at hdeclared
    exact hsome hdeclared.symm
  unfold decompressRequestBody
  dsimp only
  rw [if_neg hheader, hdeclared, if_neg hsome]
  cases decompressAll codecs encodings body maxSize with
  | error error => rfl
  | ok payload => exact (apply_ite (decompressed order headers) _ _ _).symm

theorem decompressRequestBody_of_undeclared
    (hdeclared : parseContentEncodings (findHeader headers contentEncodingName) = [])
    (hplain : maybeDecompressUndeclaredJsonBody codecs body headers maxSize = none) :
    decompressRequestBody order codecs body headers maxSize = { body, headers } := by
  unfold decompressRequestBody
  dsimp only
  rw [hplain, hdeclared, if_pos rfl]
  exact ite_self _

theorem refused_ok (error : DecompressError) : (refused error).ok = false := by
  cases error <;> rfl

theorem parseContentEncodings_intercalate (hnames : ∀ name ∈ encodings, 44 ∉ name ∧
    encodingToken name = name ∧ name ≠ [])
    (hsome : encodings ≠ []) : parseContentEncodings ([44].intercalate encodings) = encodings := by
  have htokens : encodings.map encodingToken = encodings := by
    rw [List.map_congr_left fun name hname => (hnames name hname).2.1]
    exact List.map_id' encodings
  unfold parseContentEncodings
  rw [List.splitOn_intercalate 44 (fun name hname => (hnames name hname).1) hsome, htokens, List.filter_eq_self]
  exact fun name hname => decide_eq_true (hnames name hname).2.2

/-- A body with declared encodings becomes the payload, unless it is sniffed under `identity` alone; nothing beyond the
limit comes out of a compressed body; and a zstd form is used up to its end. -/
theorem declared_encodings_are_undone (correct : CorrectCodecs codecs encoders) (order : IterationOrder)
    (headers : HeaderMap) (maxSize : ℕ) :
    (∀ payload body, parseContentEncodings (findHeader headers contentEncodingName) ≠ [] →
      Encoded codecs encoders maxSize (parseContentEncodings (findHeader headers contentEncodingName)) payload body →
      Replaced headers (decompressRequestBody order codecs body headers maxSize)
        (if (parseContentEncodings (findHeader headers contentEncodingName)).all (· = identityName) then
          sniffed codecs headers maxSize payload else payload)) ∧
      (∀ body, parseContentEncodings (findHeader headers contentEncodingName) = [] →
        maybeDecompressUndeclaredJsonBody codecs body headers maxSize = none →
        decompressRequestBody order codecs body headers maxSize = { body, headers }) ∧
      (∀ body, (∃ encoding ∈ parseContentEncodings (findHeader headers contentEncodingName), encoding ≠ identityName) →
        (decompressRequestBody order codecs body headers maxSize).ok = true →
        (decompressRequestBody order codecs body headers maxSize).body.length ≤ maxSize) ∧
      (∀ decoder form payload, codecs.zstd = some decoder → decompressOne codecs form zstdName maxSize = .ok payload →
        ∃ state left, Reaches zstdDriver decoder form state left ∧ (decoder.call state left).code = .remaining 0 ∧
          left.drop (decoder.call state left).consumed = []) := by
  refine ⟨?_, ?_, ?_, ?_⟩
  · intro payload body hsome hencoded
    rw [decompressRequestBody_of_declared rfl hsome, decompressAll_of_encoded correct hencoded]
    exact replaced_decompressed _
  · intro body hdeclared hplain
    exact decompressRequestBody_of_undeclared hdeclared hplain
  · rintro body ⟨encoding, hmem, hencoding⟩ hok
    have hsome := List.ne_nil_of_mem hmem
    have hcompressed : ¬ (parseContentEncodings (findHeader headers contentEncodingName)).all
        (· = identityName) = true := by
      intro hall
      exact hencoding (of_decide_eq_true (List.all_eq_true.mp hall encoding hmem))
    rw [decompressRequestBody_of_declared rfl hsome] at hok ⊢
    cases hall : decompressAll codecs (parseContentEncodings (findHeader headers contentEncodingName)) body maxSize with
    | error error =>
      rw [hall] at hok
      exact absurd hok (by rw [refused_ok]; exact Bool.false_ne_true)
    | ok payload =>
      dsimp only
      rw [if_neg hcompressed]
      exact length_le_of_decompressAll hall ⟨encoding, hmem, hencoding⟩
  · intro decoder form payload hbuilt h
    rw [decompressOne_zstd hbuilt] at h
    exact zstd_takes_all h

end Exactness

section Samples

def formDecoder {Code : Type} (form payload : Bytes) (goesOn ended failed : Code) : StreamDecoder Code where
  State := Option Bytes
  start := some none
  call state input :=
    let give (consumed : ℕ) (held : Bytes) : Call (Option Bytes) Code :=
      { state := some (held.drop bufferSize), consumed, output := held.take bufferSize,
        code := if held.length ≤ bufferSize then ended else goesOn }
    match state with
    | some held => give 0 held
    | none =>
      if form.isPrefixOf input then give form.length payload
      else { state := none, consumed := 0, output := [], code := failed }

def zlibDecoder (form payload : Bytes) : StreamDecoder ZlibCode := formDecoder form payload .ok .streamEnd .other

def zstdDecoder (form payload : Bytes) : StreamDecoder ZstdCode :=
  formDecoder form payload (.remaining 1) (.remaining 0) .error

def formContract {Code : Type} {goesOn ended : Code → Prop} (form payload : Bytes) (goes ends failed : Code)
    (hgoes : goesOn goes) (hends : ended ends) :
    Contract (formDecoder form payload goes ends failed) goesOn ended bufferSize
      fun payload' form' => payload' = payload ∧ form' = form where
  Pending state left pending := match state with
    | none => left = form ∧ pending = payload
    | some held => left = [] ∧ pending = held
  start := by
    rintro _ _ ⟨rfl, rfl⟩
    exact ⟨none, rfl, rfl, rfl⟩
  call := by
    have hgive (held : Bytes) : ended (if held.length ≤ bufferSize then ends else goes) ∧ held.drop bufferSize = [] ∨
        goesOn (if held.length ≤ bufferSize then ends else goes) ∧ (held.drop bufferSize).length < held.length := by
      by_cases hsize : held.length ≤ bufferSize
      · rw [if_pos hsize]
        exact .inl ⟨hends, List.drop_of_length_le hsize⟩
      · have hroom : 0 < bufferSize := by decide
        rw [if_neg hsize, List.length_drop]
        exact .inr ⟨hgoes, by omega⟩
    rintro (_ | held) left pending ⟨rfl, rfl⟩
    · have hstarts : left.isPrefixOf left = true := List.isPrefixOf_iff_prefix.mpr (List.prefix_refl left)
      refine ⟨pending.drop bufferSize, ?_⟩
      simp only [formDecoder, hstarts, if_true, List.take_append_drop, List.drop_length, List.length_take, true_and]
      refine ⟨Nat.min_le_left _ _, (hgive pending).imp_right fun h => ⟨h.1, ?_⟩⟩
      have hless := h.2
      rw [List.length_nil]
      omega
    · refine ⟨pending.drop bufferSize, ?_⟩
      simp only [formDecoder, List.take_append_drop, List.drop_zero, List.length_take, true_and]
      refine ⟨Nat.min_le_left _ _, (hgive pending).imp_right fun h => ⟨h.1, ?_⟩⟩
      have hless := h.2
      rw [List.length_nil]
      omega

structure Forms where
  gzipForm : Bytes
  gzipPayload : Bytes
  zstdForm : Bytes
  zstdPayload : Bytes

def Forms.codecs (forms : Forms) : Codecs where
  gzip := zlibDecoder forms.gzipForm forms.gzipPayload
  deflate := zlibDecoder [] []
  zstd := some (zstdDecoder forms.zstdForm forms.zstdPayload)
  brotli := none

def Forms.encoders (forms : Forms) : Encoders where
  gzip payload form := payload = forms.gzipPayload ∧ form = forms.gzipForm
  deflate payload form := payload = [] ∧ form = []
  zstd payload form := payload = forms.zstdPayload ∧ form = forms.zstdForm
  brotli _ _ := False

def Forms.correct (forms : Forms) : CorrectCodecs forms.codecs forms.encoders where
  gzip := formContract _ _ _ _ _ rfl rfl
  deflate := formContract _ _ _ _ _ rfl rfl
  zstd decoder hbuilt := by
    cases hbuilt
    exact formContract forms.zstdForm forms.zstdPayload _ _ _ ⟨0, rfl⟩ rfl
  brotli decoder hbuilt := by cases hbuilt

theorem keepsInput_zstdDecoder {form payload : Bytes} (hsize : payload.length ≤ bufferSize) :
    KeepsInput (zstdDecoder form payload) form := by
  have hstarts : form.isPrefixOf form = true := List.isPrefixOf_iff_prefix.mpr (List.prefix_refl form)
  have hfirst : ((zstdDecoder form payload).call none form).code = .remaining 0 ∧
      ((zstdDecoder form payload).call none form).consumed = form.length := by
    simp only [zstdDecoder, formDecoder, hstarts, if_true, if_pos hsize, and_self]
  have hnone : ∀ state left, Reaches zstdDriver (zstdDecoder form payload) form state left →
      state = none ∧ left = form := by
    intro state left hreach
    induction hreach with
    | start h =>
      cases h
      exact ⟨rfl, rfl⟩
    | next _ _ hverdict ih =>
      obtain ⟨rfl, rfl⟩ := ih
      rw [hfirst.1, hfirst.2, List.drop_length] at hverdict
      cases hverdict
  intro state left hreach hgoes
  obtain ⟨rfl, rfl⟩ := hnone state left hreach
  rw [hfirst.1] at hgoes
  obtain ⟨hint, hcode⟩ := hgoes
  cases hcode

def emptyObject : Bytes := ofString "\x7b\x7d"

def gzipStored : Bytes :=
  [31, 139, 8, 0, 0, 0, 0, 0, 0, 255, 1, 2, 0, 253, 255, 123, 125, 67, 191, 166, 163, 2, 0, 0, 0]

def zstdStored : Bytes := [40, 181, 47, 253, 32, 25, 201, 0, 0] ++ gzipStored

def storedForms : Forms := ⟨gzipStored, emptyObject, zstdStored, gzipStored⟩

def declaring (value : String) : HeaderMap :=
  [(contentEncodingName, ofString value), (ofString "content-type", ofString "application/json")]

theorem stored_object_is_undone :
    Replaced (declaring "gzip,zstd") (decompressRequestBody .insertionOrder storedForms.codecs zstdStored
        (declaring "gzip,zstd") 1024) emptyObject ∧
      (decompressRequestBody .insertionOrder storedForms.codecs zstdStored (declaring "gzip,zstd") 1024).body.length ≤
        1024 := by
  have hdeclared : parseContentEncodings (findHeader (declaring "gzip,zstd") contentEncodingName) =
      [gzipName, zstdName] := by
    have hheader : findHeader (declaring "gzip,zstd") contentEncodingName = [44].intercalate [gzipName, zstdName] := by
      decide +kernel
    rw [hheader]
    exact parseContentEncodings_intercalate (by decide +kernel) (List.cons_ne_nil _ _)
  have hgzip : EncodedBy storedForms.codecs storedForms.encoders 1024 gzipName emptyObject gzipStored :=
    .gzip ⟨rfl, rfl⟩ (by decide) (by decide)
  have hzstd : EncodedBy storedForms.codecs storedForms.encoders 1024 zstdName gzipStored zstdStored :=
    .zstd rfl ⟨rfl, rfl⟩ (by decide) (by decide) (keepsInput_zstdDecoder (by decide))
  have hundone := declared_encodings_are_undone storedForms.correct .insertionOrder (declaring "gzip,zstd") 1024
  rw [hdeclared] at hundone
  have hreplaced := hundone.1 emptyObject zstdStored (List.cons_ne_nil _ _) (.encoding hgzip (.encoding hzstd .plain))
  exact ⟨hreplaced, hundone.2.2.1 zstdStored ⟨gzipName, List.mem_cons_self, by decide⟩ hreplaced.ok⟩

theorem decompressZstd_of_large {form payload : Bytes} {maxSize : ℕ} (hform : form ≠ [])
    (hlarge : bufferSize < payload.length)
    (hmax : bufferSize ≤ maxSize) : decompressZstd (zstdDecoder form payload) form maxSize =
      .error (.failed (ofString "zstd stream incomplete")) := by
  have hstarts : form.isPrefixOf form = true := List.isPrefixOf_iff_prefix.mpr (List.prefix_refl form)
  have hgiven : ¬ ((payload.take bufferSize ≠ []) ∧
      ([] : Bytes).length + (payload.take bufferSize).length > maxSize) := by
    rw [List.length_take, List.length_nil]
    omega
  have hcode : ¬ payload.length ≤ bufferSize := not_le.mpr hlarge
  unfold decompressZstd driveFrom
  rw [if_neg fun h => hform h.2]
  simp only [zstdDecoder, formDecoder]
  rw [drive]
  simp only [hstarts, if_true, if_neg hcode, List.drop_length, zstdDriver, if_neg hgiven]
  rfl

theorem inflate_of_huge {form payload : Bytes} {maxSize : ℕ} (hform : form.length = 2 ^ 32) :
    inflateWithWindowBits (zlibDecoder form payload) form maxSize = .error (.failed (ofString "inflate failed")) := by
  have hstarts : form.isPrefixOf [] = false := by
    cases form with
    | nil => cases hform
    | cons first rest => rfl
  unfold inflateWithWindowBits driveFrom
  rw [hform, Nat.mod_self, List.take_zero]
  simp only [zlibDecoder, formDecoder]
  rw [drive]
  simp only [hstarts]
  rfl

def zerosForms : Forms :=
  ⟨List.replicate (2 ^ 32) 0, emptyObject, [40, 181, 47, 253, 160, 1, 0, 1, 0, 11, 0, 8, 0], List.replicate 65537 0⟩

theorem decompressRequestBody_of_error {codecs : Codecs} {headers : HeaderMap} {body encoding : Bytes} {maxSize : ℕ}
    {error : DecompressError} (hdeclared : parseContentEncodings (findHeader headers contentEncodingName) = [encoding])
    (h : decompressOne codecs body encoding maxSize = .error error) :
    (decompressRequestBody .insertionOrder codecs body headers maxSize).ok = false := by
  have hall : decompressAll codecs [encoding] body maxSize = .error error := by
    rw [decompressAll_cons]
    exact h
  rw [decompressRequestBody_of_declared hdeclared (List.cons_ne_nil _ _), hall]
  exact refused_ok error

/-- A payload that looks like gzip is decompressed under `identity`, what follows a gzip member is dropped, and correct
codecs do not save a zstd form that is taken before its output is given, or a gzip form of 2³² bytes. -/
theorem payloads_and_input_are_lost :
    Nonempty (CorrectCodecs storedForms.codecs storedForms.encoders) ∧
    (decompressRequestBody .insertionOrder storedForms.codecs gzipStored (declaring "identity") 1024).ok = true ∧
    (decompressRequestBody .insertionOrder storedForms.codecs gzipStored (declaring "identity") 1024).body =
      emptyObject ∧
    (decompressRequestBody .insertionOrder storedForms.codecs (gzipStored ++ [0]) (declaring "gzip") 1024).ok = true ∧
    Nonempty (CorrectCodecs zerosForms.codecs zerosForms.encoders) ∧
    zerosForms.encoders.zstd zerosForms.zstdPayload zerosForms.zstdForm ∧ zerosForms.zstdPayload.length ≤ 2 ^ 32 ∧
    (decompressRequestBody .insertionOrder zerosForms.codecs zerosForms.zstdForm (declaring "zstd") (2 ^ 32)).ok =
      false ∧
    zerosForms.encoders.gzip zerosForms.gzipPayload zerosForms.gzipForm ∧ zerosForms.gzipPayload.length ≤ 2 ^ 32 ∧
    (decompressRequestBody .insertionOrder zerosForms.codecs zerosForms.gzipForm (declaring "gzip") (2 ^ 32)).ok =
      false := by
  refine ⟨⟨storedForms.correct⟩, ?_⟩
  refine ⟨by decide +kernel, by decide +kernel, by decide +kernel, ?_⟩
  have hlarge : bufferSize < zerosForms.zstdPayload.length := by
    rw [zerosForms, List.length_replicate]
    decide
  have hbounded : zerosForms.zstdPayload.length ≤ 2 ^ 32 := by
    rw [zerosForms, List.length_replicate]
    decide
  refine ⟨⟨zerosForms.correct⟩, ⟨rfl, rfl⟩, hbounded, ?_, ⟨rfl, rfl⟩, by decide, ?_⟩
  · have hdeclared : parseContentEncodings (findHeader (declaring "zstd") contentEncodingName) = [zstdName] := by
      decide +kernel
    have hform : zerosForms.zstdForm ≠ [] := List.cons_ne_nil _ _
    have hzstd := decompressZstd_of_large hform hlarge (show bufferSize ≤ 2 ^ 32 by decide)
    exact decompressRequestBody_of_error hdeclared ((decompressOne_zstd rfl).trans hzstd)
  · have hdeclared : parseContentEncodings (findHeader (declaring "gzip") contentEncodingName) = [gzipName] := by
      decide +kernel
    have hlength : zerosForms.gzipForm.length = 2 ^ 32 := List.length_replicate
    exact decompressRequestBody_of_error hdeclared (decompressOne_gzip.trans (inflate_of_huge hlength))

end Samples

end Tightrope.Server.Middleware
