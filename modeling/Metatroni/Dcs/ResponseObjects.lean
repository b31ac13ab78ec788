import Metatroni.Lib.Json
import Mathlib.Data.List.Infix
import Mathlib.Data.List.TakeWhile

/-!
# JSON documents in a response

`iter_response_objects` of `utils.py` reads a response in chunks and yields each JSON document
as soon as it is complete. What is left of a chunk is put in front of the next one.

## Implementation notes

The position in a chunk is what is left from there on. `JSONDecoder.raw_decode` is a parameter.
-/

namespace Metatroni

namespace ResponseObjects

variable {α : Type}

theorem skip_skip (cs : List Char) : Json.skip (Json.skip cs) = Json.skip cs :=
  List.dropWhile_eq_self_iff.mpr (List.dropWhile_get_zero_not _ cs)

/-- `JSONDecoder.raw_decode`: the document at the start and what is left behind it, or `none` for a
`ValueError`. A document that is found is not empty. -/
structure JSONDecoder (α : Type) where
  rawDecode : List Char → Option (α × List Char)
  rawDecode_shorter : ∀ cs message rest, rawDecode cs = some (message, rest) →
    rest.length < cs.length

namespace JSONDecoder

variable (decoder : JSONDecoder α)

/-- The next document of a chunk that is not at its end. -/
def nextMessage (chunk : List Char) : Option (α × List Char) :=
  if Json.skip chunk = [] then none else decoder.rawDecode (Json.skip chunk)

theorem nextMessage_shorter {chunk rest : List Char} {message : α}
    (h : decoder.nextMessage chunk = some (message, rest)) : rest.length < chunk.length := by
  rw [nextMessage] at h
  split at h
  · cases h
  · exact (decoder.rawDecode_shorter _ _ _ h).trans_le (List.dropWhile_suffix _).length_le

/-- The loop over a chunk: the documents and what is left. -/
def decodeMessages (chunk : List Char) : List α × List Char :=
  match _h : decoder.nextMessage chunk with
  | none => ([], Json.skip chunk)
  | some (message, rest) => (message :: (decodeMessages rest).1, (decodeMessages rest).2)
termination_by chunk.length
decreasing_by exact decoder.nextMessage_shorter _h

theorem decodeMessages_of_none {chunk : List Char} (h : decoder.nextMessage chunk = none) :
    decoder.decodeMessages chunk = ([], Json.skip chunk) := by
  rw [JSONDecoder.decodeMessages]
  split
  · rfl
  · next heq =>
      rw [h] at heq
      cases heq

theorem decodeMessages_of_some {chunk rest : List Char} {message : α}
    (h : decoder.nextMessage chunk = some (message, rest)) :
    decoder.decodeMessages chunk =
      (message :: (decoder.decodeMessages rest).1, (decoder.decodeMessages rest).2) := by
  rw [JSONDecoder.decodeMessages]
  split
  · next heq =>
      rw [h] at heq
      cases heq
  · next heq =>
      obtain ⟨rfl, rfl⟩ := Prod.mk.inj (Option.some.inj (h.symm.trans heq))
      rfl

theorem nextMessage_skip (chunk : List Char) :
    decoder.nextMessage (Json.skip chunk) = decoder.nextMessage chunk := by
  rw [nextMessage, nextMessage, skip_skip]

/-- Nothing more can be decoded of what is left. -/
theorem decodeMessages_left (chunk : List Char) :
    decoder.decodeMessages (decoder.decodeMessages chunk).2 =
      ([], (decoder.decodeMessages chunk).2) := by
  induction hlength : chunk.length using Nat.strongRecOn generalizing chunk with
  | _ n ih =>
      cases hnext : decoder.nextMessage chunk with
      | none =>
          have hskip := (decoder.nextMessage_skip chunk).trans hnext
          rw [decoder.decodeMessages_of_none hnext, decoder.decodeMessages_of_none hskip, skip_skip]
      | some next =>
          obtain ⟨message, rest⟩ := next
          rw [decoder.decodeMessages_of_some hnext]
          exact ih rest.length (hlength ▸ decoder.nextMessage_shorter hnext) rest rfl

end JSONDecoder

/-- What is yielded, and whether `UnicodeDecodeError` is raised then. -/
structure Iteration (α : Type) where
  yielded : List α
  raised : Bool

/-- The loop over the chunks of `iter_response_objects`. -/
def iterFrom (decoder : JSONDecoder α) (prev : List Char) : List ByteArray → Iteration α
  | [] => ⟨[], false⟩
  | chunk :: chunks =>
      match chunk.utf8Decode? with
      | none => ⟨[], true⟩
      | some cs =>
          let (messages, prev) := decoder.decodeMessages (prev ++ cs.toList)
          let rest := iterFrom decoder prev chunks
          ⟨messages ++ rest.yielded, rest.raised⟩

/-- `iter_response_objects` -/
def iterResponseObjects (decoder : JSONDecoder α) (chunks : List ByteArray) : Iteration α :=
  iterFrom decoder [] chunks

/-! ## Streams of objects -/

def IsBlank (cs : List Char) : Prop := ∀ c ∈ cs, c ∈ [' ', '\t', '\n', '\r']

/-- A text of objects with blanks around them. -/
inductive IsStream (IsObject : List Char → α → Prop) : List Char → List α → Prop
  | blanks {cs : List Char} (hblank : IsBlank cs) : IsStream IsObject cs []
  | object {blanks text rest : List Char} {message : α} {messages : List α}
      (hblank : IsBlank blanks) (hobject : IsObject text message)
      (hrest : IsStream IsObject rest messages) :
      IsStream IsObject (blanks ++ (text ++ rest)) (message :: messages)

/-- The decoder finds an object that is complete, and no object in a part of it. -/
structure JSONDecoder.IsStandard (decoder : JSONDecoder α) (IsObject : List Char → α → Prop) :
    Prop where
  brace : ∀ text message, IsObject text message → text.head? = some '{'
  complete : ∀ text message, IsObject text message →
    ∀ rest, decoder.rawDecode (text ++ rest) = some (message, rest)
  incomplete : ∀ text message, IsObject text message →
    ∀ part, part <+: text → part ≠ text → decoder.rawDecode part = none

/-! ## One chunk -/

section Chunk

variable {decoder : JSONDecoder α} {IsObject : List Char → α → Prop}

theorem skip_blanks_append {blanks : List Char} (h : IsBlank blanks) (cs : List Char) :
    Json.skip (blanks ++ cs) = Json.skip cs := by
  rw [Json.skip, List.dropWhile_append_of_pos fun c hc => decide_eq_true (h c hc)]
  rfl

theorem skip_of_isBlank {cs : List Char} (h : IsBlank cs) : Json.skip cs = [] := by
  rw [← List.append_nil cs, skip_blanks_append h]
  rfl

theorem nextMessage_of_isBlank {cs : List Char} (h : IsBlank cs) :
    decoder.nextMessage cs = none :=
  if_pos (skip_of_isBlank h)

theorem nextMessage_blanks_append {blanks : List Char} (h : IsBlank blanks) (cs : List Char) :
    decoder.nextMessage (blanks ++ cs) = decoder.nextMessage cs := by
  rw [JSONDecoder.nextMessage, JSONDecoder.nextMessage, skip_blanks_append h]

theorem decodeMessages_blanks_append {blanks : List Char} (h : IsBlank blanks) (cs : List Char) :
    decoder.decodeMessages (blanks ++ cs) = decoder.decodeMessages cs := by
  have hblanks := @nextMessage_blanks_append _ decoder _ h cs
  cases hnext : decoder.nextMessage cs with
  | none =>
      rw [decoder.decodeMessages_of_none (hblanks.trans hnext),
        decoder.decodeMessages_of_none hnext, skip_blanks_append h]
  | some next =>
      rw [decoder.decodeMessages_of_some (hblanks.trans hnext),
        decoder.decodeMessages_of_some hnext]

variable {text : List Char} {message : α}

namespace JSONDecoder

/-- A text that starts like an object has no blanks to skip. -/
theorem IsStandard.nextMessage_eq (h : decoder.IsStandard IsObject)
    (hobject : IsObject text message) {cs : List Char} (hcs : cs.head? = text.head?) :
    Json.skip cs = cs ∧ decoder.nextMessage cs = decoder.rawDecode cs := by
  rw [h.brace text message hobject] at hcs
  obtain ⟨rest, rfl⟩ := List.head?_eq_some_iff.mp hcs
  have hskip : Json.skip ('{' :: rest) = '{' :: rest := Json.skip_cons (by decide) rest
  refine ⟨hskip, ?_⟩
  rw [nextMessage, hskip]
  exact if_neg (List.cons_ne_nil _ _)

theorem IsStandard.decodeMessages_object (h : decoder.IsStandard IsObject)
    (hobject : IsObject text message) (rest : List Char) :
    decoder.decodeMessages (text ++ rest) =
      (message :: (decoder.decodeMessages rest).1, (decoder.decodeMessages rest).2) := by
  refine decoder.decodeMessages_of_some ?_
  have hhead : (text ++ rest).head? = text.head? := by
    rw [List.head?_append, h.brace text message hobject]
    rfl
  rw [(h.nextMessage_eq hobject hhead).2]
  exact h.complete text message hobject rest

theorem IsStandard.decodeMessages_partOfObject (h : decoder.IsStandard IsObject)
    (hobject : IsObject text message) {part : List Char} (hpart : part <+: text)
    (hne : part ≠ text) : decoder.decodeMessages part = ([], part) := by
  by_cases hempty : part = []
  · subst hempty
    exact decoder.decodeMessages_of_none (nextMessage_of_isBlank (by simp [IsBlank]))
  · obtain ⟨rest, rfl⟩ := hpart
    have hhead : part.head? = (part ++ rest).head? := (List.head?_append_of_ne_nil part hempty).symm
    obtain ⟨hskip, hnext⟩ := h.nextMessage_eq hobject hhead
    rw [decoder.decodeMessages_of_none, hskip]
    rw [hnext]
    exact h.incomplete _ message hobject part (List.prefix_append _ _) hne

/-- A part of a stream: its documents are the first ones of the stream, and what is left goes on
with the rest of the stream. -/
theorem IsStandard.decodeMessages_part (h : decoder.IsStandard IsObject) {stream : List Char}
    {messages : List α} (hstream : IsStream IsObject stream messages) {part rest : List Char}
    (hparts : stream = part ++ rest) :
    ∃ later, messages = (decoder.decodeMessages part).1 ++ later ∧
      IsStream IsObject ((decoder.decodeMessages part).2 ++ rest) later := by
  induction hstream generalizing part with
  | blanks hblank =>
      rw [hparts] at hblank
      have hpart : IsBlank part := fun c hc => hblank c (List.mem_append_left _ hc)
      rw [decoder.decodeMessages_of_none (nextMessage_of_isBlank hpart), skip_of_isBlank hpart]
      exact ⟨[], rfl, .blanks fun c hc => hblank c (List.mem_append_right _ hc)⟩
  | @object blanks text stream message messages hblank hobject hrest ih =>
      rcases List.append_eq_append_iff.mp hparts with ⟨part, rfl, hpart⟩ | ⟨blanks', rfl, rfl⟩
      · rw [decodeMessages_blanks_append hblank]
        rcases List.append_eq_append_iff.mp hpart with ⟨part, rfl, rfl⟩ | ⟨text', htext, rfl⟩
        · -- the object is complete
          rw [h.decodeMessages_object hobject]
          obtain ⟨later, rfl, hlater⟩ := ih rfl
          exact ⟨later, rfl, hlater⟩
        · by_cases hend : text' = []
          · rw [hend, List.append_nil] at htext
            subst hend htext
            obtain ⟨later, rfl, hlater⟩ := @ih [] rfl
            rw [← List.append_nil text, h.decodeMessages_object hobject]
            exact ⟨later, rfl, hlater⟩
          · -- a part of the object is left as it is
            have hne : part ≠ text := fun heq => hend (by simpa [heq] using htext)
            rw [h.decodeMessages_partOfObject hobject ⟨text', htext.symm⟩ hne]
            refine ⟨_, rfl, ?_⟩
            rw [← List.append_assoc, ← htext]
            exact @IsStream.object _ _ [] _ _ _ _ (by simp [IsBlank]) hobject hrest
      · have hpart : IsBlank part := fun c hc => hblank c (List.mem_append_left _ hc)
        rw [decoder.decodeMessages_of_none (nextMessage_of_isBlank hpart), skip_of_isBlank hpart]
        have hblank' : IsBlank blanks' := fun c hc => hblank c (List.mem_append_right _ hc)
        exact ⟨_, rfl, @IsStream.object _ _ blanks' _ _ _ _ hblank' hobject hrest⟩

/-- All documents of a stream can be decoded. -/
theorem IsStandard.decodeMessages_stream (h : decoder.IsStandard IsObject) {stream : List Char}
    {messages : List α} (hstream : IsStream IsObject stream messages) :
    decoder.decodeMessages stream = (messages, []) := by
  induction hstream with
  | blanks hblank =>
      rw [decoder.decodeMessages_of_none (nextMessage_of_isBlank hblank), skip_of_isBlank hblank]
  | object hblank hobject _ ih =>
      rw [decodeMessages_blanks_append hblank, h.decodeMessages_object hobject, ih]

end JSONDecoder

end Chunk

/-! ## All chunks -/

section Chunks

variable {decoder : JSONDecoder α} {IsObject : List Char → α → Prop}

/-- The bytes of a response. -/
def joined (chunks : List ByteArray) : ByteArray := chunks.foldr (· ++ ·) .empty

/-- An exception is raised at the first chunk that is no text by itself. -/
theorem raised_iterFrom (decoder : JSONDecoder α) (prev : List Char) (chunks : List ByteArray) :
    (iterFrom decoder prev chunks).raised = false ↔ ∀ chunk ∈ chunks, chunk.IsValidUTF8 := by
  induction chunks generalizing prev with
  | nil => simp [iterFrom]
  | cons chunk chunks ih =>
      rw [List.forall_mem_cons, ← ByteArray.isSome_utf8Decode?_iff, iterFrom]
      cases chunk.utf8Decode? with
      | none => simp
      | some cs => simp [ih]

theorem joined_map_utf8Encode (parts : List (List Char)) :
    joined (parts.map List.utf8Encode) = parts.flatten.utf8Encode := by
  induction parts with
  | nil => exact List.utf8Encode_nil.symm
  | cons part parts ih =>
      rw [List.flatten_cons, List.utf8Encode_append, ← ih]
      rfl

/-- Chunks that are texts by themselves are parts of the whole text. -/
theorem exists_parts {chunks : List ByteArray} (hchunks : ∀ chunk ∈ chunks, chunk.IsValidUTF8)
    {text : List Char} (htext : joined chunks = text.utf8Encode) :
    ∃ parts : List (List Char), chunks = parts.map List.utf8Encode ∧ text = parts.flatten := by
  have hparts : ∃ parts : List (List Char), chunks = parts.map List.utf8Encode := by
    clear htext
    induction chunks with
    | nil => exact ⟨[], rfl⟩
    | cons chunk chunks ih =>
        rw [List.forall_mem_cons] at hchunks
        obtain ⟨part, rfl⟩ := hchunks.1
        obtain ⟨parts, rfl⟩ := ih hchunks.2
        exact ⟨part :: parts, rfl⟩
  obtain ⟨parts, rfl⟩ := hparts
  rw [joined_map_utf8Encode] at htext
  have hdecode := congrArg ByteArray.utf8Decode? htext
  rw [List.utf8Decode?_utf8Encode, List.utf8Decode?_utf8Encode, Option.some.injEq] at hdecode
  exact ⟨parts, rfl, (List.toArray_inj hdecode).symm⟩

/-- Each part of a text adds its documents. -/
theorem JSONDecoder.IsStandard.iterFrom_parts (h : decoder.IsStandard IsObject)
    (parts : List (List Char)) {prev : List Char} {messages : List α}
    (hprev : decoder.decodeMessages prev = ([], prev))
    (hstream : IsStream IsObject (prev ++ parts.flatten) messages) :
    iterFrom decoder prev (parts.map List.utf8Encode) = ⟨messages, false⟩ := by
  induction parts generalizing prev messages with
  | nil =>
      -- no document is left, since it could be decoded
      rw [List.flatten_nil, List.append_nil] at hstream
      rw [h.decodeMessages_stream hstream] at hprev
      rw [(Prod.mk.inj hprev).1]
      rfl
  | cons part parts ih =>
      rw [List.flatten_cons, ← List.append_assoc] at hstream
      obtain ⟨later, hmessages, hlater⟩ := h.decodeMessages_part hstream rfl
      rw [List.map_cons, iterFrom, List.utf8Decode?_utf8Encode]
      simp only [ih (decoder.decodeMessages_left _) hlater, hmessages]

/-- The objects of a stream are yielded without an exception if and only if no chunk ends inside a
character. -/
theorem iterResponseObjects_eq_iff (h : decoder.IsStandard IsObject) {text : List Char}
    {messages : List α} (hstream : IsStream IsObject text messages) {chunks : List ByteArray}
    (hchunks : joined chunks = text.utf8Encode) :
    iterResponseObjects decoder chunks = ⟨messages, false⟩ ↔
      ∀ chunk ∈ chunks, chunk.IsValidUTF8 := by
  constructor
  · intro heq
    refine (raised_iterFrom decoder [] chunks).mp ?_
    rw [← iterResponseObjects, heq]
  · intro hvalid
    obtain ⟨parts, rfl, rfl⟩ := exists_parts hvalid hchunks
    have hempty : decoder.decodeMessages [] = ([], []) :=
      decoder.decodeMessages_of_none (nextMessage_of_isBlank (by simp [IsBlank]))
    exact h.iterFrom_parts parts hempty hstream

end Chunks

/-- The decoder of this development. -/
def scanner : JSONDecoder (PyValue Unit) :=
  letI := PyRuntime.ascii
  { rawDecode := fun cs => (Json.scanValue (cs.length + 1) cs).filter fun next =>
      next.2.length < cs.length
    rawDecode_shorter := fun cs message rest h => by
      obtain ⟨-, hlt⟩ := Option.filter_eq_some_iff.mp h
      exact of_decide_eq_true hlt }

/-- An object with a character of two bytes. -/
def IsSample (text : List Char) (message : PyValue Unit) : Prop :=
  text = ['{', '"', 'é', '"', ':', '0', '}'] ∧ message = .dict [(['é'], .int 0)]

theorem isStandard_scanner : scanner.IsStandard IsSample where
  brace := by
    rintro text message ⟨rfl, rfl⟩
    rfl
  complete := by
    rintro text message ⟨rfl, rfl⟩ rest
    let _ := PyRuntime.ascii
    have hscan : Json.scanValue (rest.length + 8)
        ('{' :: '"' :: 'é' :: '"' :: ':' :: '0' :: '}' :: rest) =
          some (.dict [(['é'], (.int 0 : PyValue Unit))], rest) := rfl
    have hshorter : rest.length < rest.length + 7 := by omega
    exact (Option.filter_eq_some_iff (p := fun next : PyValue Unit × List Char =>
      decide (next.2.length < rest.length + 7))).mpr ⟨hscan, decide_eq_true hshorter⟩
  incomplete := by
    rintro text message ⟨rfl, rfl⟩ part hpart hne
    have hall : ∀ part ∈ ['{', '"', 'é', '"', ':', '0', '}'].inits,
        part ≠ ['{', '"', 'é', '"', ':', '0', '}'] → (scanner.rawDecode part).isNone := by
      decide +kernel
    exact Option.isNone_iff_eq_none.mp (hall part ((List.mem_inits _ _).mpr hpart) hne)

/-- An object in a line. -/
theorem isStream_sample :
    IsStream IsSample ['{', '"', 'é', '"', ':', '0', '}', '\n'] [.dict [(['é'], .int 0)]] :=
  @IsStream.object _ _ [] ['{', '"', 'é', '"', ':', '0', '}'] ['\n'] _ _ (by simp [IsBlank])
    ⟨rfl, rfl⟩ (.blanks (by simp [IsBlank]))

/-- A cut behind the character. -/
theorem iterResponseObjects_sample :
    iterResponseObjects scanner
        [['{', '"', 'é'].utf8Encode, ['"', ':', '0', '}', '\n'].utf8Encode] =
      ⟨[.dict [(['é'], .int 0)]], false⟩ := by
  refine (iterResponseObjects_eq_iff isStandard_scanner isStream_sample ?_).mpr ?_
  · exact joined_map_utf8Encode [['{', '"', 'é'], ['"', ':', '0', '}', '\n']]
  · rw [List.forall_mem_cons, List.forall_mem_singleton]
    exact ⟨⟨_, rfl⟩, ⟨_, rfl⟩⟩

/-- A cut between the two bytes of the character. -/
theorem iterResponseObjects_cutCharacter :
    scanner.IsStandard IsSample ∧
      ∃ text messages, IsStream IsSample text messages ∧
        joined [⟨#[0x7b, 0x22, 0xc3]⟩, ⟨#[0xa9, 0x22, 0x3a, 0x30, 0x7d, 0x0a]⟩] =
          text.utf8Encode ∧
        iterResponseObjects scanner
          [⟨#[0x7b, 0x22, 0xc3]⟩, ⟨#[0xa9, 0x22, 0x3a, 0x30, 0x7d, 0x0a]⟩] ≠ ⟨messages, false⟩ := by
  refine ⟨isStandard_scanner, _, _, isStream_sample, by decide +kernel, ?_⟩
  intro h
  have hraised := congrArg Iteration.raised h
  exact absurd hraised (by decide +kernel)

end ResponseObjects

end Metatroni
