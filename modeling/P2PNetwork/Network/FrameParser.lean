import P2PNetwork.Network.Segmentation
import P2PNetwork.Network.VersionDecoder

/-!
# The frame parser on arbitrary buffers

What `raw_byte_processing` returns on any buffer, in terms of the header at its
front and the bytes behind it: when it accepts a frame, when it waits, and when
one of its slices is out of range.
-/

namespace P2PNetwork.FrameParser

open P2PNetwork.ByteAccess
open P2PNetwork.Endian
open P2PNetwork.Framing
open P2PNetwork.Segmentation
open P2PNetwork.TaskRead
open P2PNetwork.TaskWrite
open P2PNetwork.Wire

/-! ## Buffers with a header -/

/-- Any 24 bytes are some header. -/
theorem exists_header {buffer : Bytes} (hlength : 24 ≤ buffer.length) :
    ∃ header : HeaderMessage,
      buffer = header.serializeHeaderMessage ++ buffer.drop 24 := by
  have hread {size start : ℕ} (hbound : start + size ≤ buffer.length) :=
    exists_readArray ErrorParsing.invalidCommand hbound
  obtain ⟨magic, -, hmagic⟩ := hread (by omega : 0 + 4 ≤ buffer.length)
  obtain ⟨command, -, hcommand⟩ := hread (by omega : 4 + 12 ≤ buffer.length)
  obtain ⟨length, -, hlength'⟩ := hread (by omega : 16 + 4 ≤ buffer.length)
  obtain ⟨checksum, -, hchecksum⟩ := hread (by omega : 20 + 4 ≤ buffer.length)
  refine ⟨{
    magicBytes := u32FromLeBytes magic
    command := command
    length := u32FromLeBytes length
    checksum := checksum }, ?_⟩
  simp only [HeaderMessage.serializeHeaderMessage, u32ToLeBytes_u32FromLeBytes,
    hmagic, hcommand, hlength', hchecksum, List.append_assoc, List.drop_zero]
  have hsplit (start size : ℕ) : (buffer.drop start).take size ++
      buffer.drop (start + size) = buffer.drop start := by
    rw [← List.drop_drop, List.take_append_drop]
  rw [hsplit 20 4, hsplit 16 4, hsplit 4 12, List.take_append_drop]

section Parser

variable {sha256 : Bytes → ByteArr 32} {header : HeaderMessage} {payload : Bytes}

theorem rawByteProcessing_version (hmagic : header.magicBytes = Wire.magicBytes)
    (hcommand : header.command = bytesVersion) :
    rawByteProcessing sha256 (header.serializeHeaderMessage ++ payload) =
      if payload.length < header.length.toNat then .ok none
      else mapError .errorLowLevelParsing
        (VersionMessage.unserializeVersionMessage payload) >>=
          fun (versionMessage, lengthMessage) =>
            if lengthMessage > maxSizePayload then fail .largePayloadSize
            else if header.checksum ≠ checksumCalculate sha256
                versionMessage.serializeVersionMessage then
              fail .invalidCheckSum
            else .ok (some (.version versionMessage, lengthMessage)) := by
  have htype : messageTypeDefinition header.command = .versionMessage := by
    rw [hcommand]
    rfl
  rw [rawByteProcessing_header sha256 hmagic, htype]
  simp only [versionProcessing, readArray_header_length,
    readArray_header_checksum, sliceFrom_header, ok_bind,
    u32FromLeBytes_u32ToLeBytes]
  simp [lenHeaderMessage]

theorem rawByteProcessing_verack (hmagic : header.magicBytes = Wire.magicBytes)
    (hcommand : header.command = bytesVerack) :
    rawByteProcessing sha256 (header.serializeHeaderMessage ++ payload) =
      if header.checksum = checksumCalculate sha256 [0] then
        .ok (some (.verack {}, 0))
      else fail .invalidCheckSum := by
  have htype : messageTypeDefinition header.command = .verackMessage := by
    rw [hcommand]
    decide
  rw [rawByteProcessing_header sha256 hmagic, htype]
  simp only [verackProcessing, readArray_header_length,
    readArray_header_checksum, ok_bind, VerackMessage.unserializeVerackMessage]
  by_cases hchecksum : header.checksum = checksumCalculate sha256 [0] <;>
    simp [lenHeaderMessage, VerackMessage.serializeVerackMessage, hchecksum]

end Parser

/-! ## The front of a buffer -/

/-- The buffer starts with the magic bytes of the network. -/
def StartsMagic (buffer : Bytes) : Prop :=
  buffer.take 4 = (u32ToLeBytes Wire.magicBytes).toList

/-- Behind the magic bytes stands the given command. -/
structure StartsCommand (buffer : Bytes) (command : ByteArr 12) : Prop where
  magic : StartsMagic buffer
  command : (buffer.drop 4).take 12 = command.toList

theorem startsMagic_header (header : HeaderMessage) (payload : Bytes) :
    StartsMagic (header.serializeHeaderMessage ++ payload) ↔
      header.magicBytes = Wire.magicBytes := by
  have hfront : (header.serializeHeaderMessage ++ payload).take 4 =
      (u32ToLeBytes header.magicBytes).toList := by
    simp [HeaderMessage.serializeHeaderMessage]
  rw [StartsMagic, hfront]
  constructor
  · intro hbytes
    have hvalue := congrArg u32FromLeBytes (List.Vector.eq _ _ hbytes)
    simpa using hvalue
  · intro hmagic
    rw [hmagic]

theorem startsCommand_header (header : HeaderMessage) (payload : Bytes)
    (command : ByteArr 12) :
    StartsCommand (header.serializeHeaderMessage ++ payload) command ↔
      header.magicBytes = Wire.magicBytes ∧ header.command = command := by
  have hfront : ((header.serializeHeaderMessage ++ payload).drop 4).take 12 =
      header.command.toList := by
    simp [HeaderMessage.serializeHeaderMessage]
  constructor
  · rintro ⟨hmagic, hcommand⟩
    rw [hfront] at hcommand
    exact ⟨(startsMagic_header header payload).mp hmagic,
      List.Vector.eq _ _ hcommand⟩
  · rintro ⟨hmagic, rfl⟩
    exact ⟨(startsMagic_header header payload).mpr hmagic, hfront⟩

theorem exists_startsCommand {buffer : Bytes} (hmagic : StartsMagic buffer)
    (hlength : 16 ≤ buffer.length) : ∃ command, StartsCommand buffer command := by
  obtain ⟨command, -, hcommand⟩ :=
    exists_readArray ErrorParsing.invalidCommand
      (by omega : 4 + 12 ≤ buffer.length)
  exact ⟨command, hmagic, hcommand.symm⟩

/-- The commands the parser knows, behind which it slices the rest of the
header. -/
def Known (command : ByteArr 12) : Prop :=
  command = bytesVersion ∨ command = bytesVerack

theorem known_or_uncertain (command : ByteArr 12) :
    Known command ∨ messageTypeDefinition command = .uncertainMessage := by
  unfold messageTypeDefinition
  split
  case isTrue hversion => exact .inl (.inl hversion)
  case isFalse =>
    split
    case isTrue hverack => exact .inl (.inr hverack)
    case isFalse => exact .inr rfl

section Front

variable {sha256 : Bytes → ByteArr 32} {buffer : Bytes}

theorem readArray_magic (hmagic : StartsMagic buffer) :
    readArray 4 (ErrorParsing.conversionError {}) buffer 0 =
      .ok (u32ToLeBytes Wire.magicBytes) := by
  have hbuffer : buffer =
      (u32ToLeBytes Wire.magicBytes).toList ++ buffer.drop 4 := by
    rw [← hmagic, List.take_append_drop]
  rw [hbuffer]
  exact readArray_front _

theorem rawByteProcessing_of_not_magic (hlength : 4 ≤ buffer.length)
    (hmagic : ¬StartsMagic buffer) :
    rawByteProcessing sha256 buffer = fail .invalidMagicBytes := by
  obtain ⟨magic, hread, hfield⟩ :=
    exists_readArray (ErrorParsing.conversionError {})
      (by omega : 0 + 4 ≤ buffer.length)
  have hne : u32FromLeBytes magic ≠ Wire.magicBytes := by
    intro heq
    rw [StartsMagic, ← heq, u32ToLeBytes_u32FromLeBytes, hfield] at hmagic
    exact hmagic rfl
  simp [rawByteProcessing, hread, hne]

theorem rawByteProcessing_lt_command (hmagic : StartsMagic buffer)
    (hlength : buffer.length < 16) :
    rawByteProcessing sha256 buffer = .error .panic := by
  have hcommand : readArray 12 (ErrorParsing.conversionError {}) buffer 4 =
      .error .panic := readArray_eq_panic hlength
  simp [rawByteProcessing, readArray_magic hmagic, hcommand]

theorem readArray_command {command : ByteArr 12}
    (hcommand : StartsCommand buffer command) :
    readArray 12 (ErrorParsing.conversionError {}) buffer 4 = .ok command := by
  have hlength := congrArg List.length hcommand.command
  rw [List.Vector.toList_length, List.length_take, List.length_drop] at hlength
  obtain ⟨field, hread, hfield⟩ :=
    exists_readArray (ErrorParsing.conversionError {})
      (by omega : 4 + 12 ≤ buffer.length)
  rw [hcommand.command] at hfield
  rw [hread, List.Vector.eq _ _ hfield]

theorem rawByteProcessing_uncertain {command : ByteArr 12}
    (hcommand : StartsCommand buffer command)
    (htype : messageTypeDefinition command = .uncertainMessage) :
    rawByteProcessing sha256 buffer = fail .invalidCommand := by
  simp [rawByteProcessing, readArray_magic hcommand.magic,
    readArray_command hcommand, htype]

theorem needs_versionProcessing : Needs 24 (versionProcessing sha256) := by
  refine .bind (errorFree_readArray _ _ _) fun bytesLength => ?_
  intro bytes hshort
  have hread : readArray 4 (ErrorParsing.conversionError {}) bytes 20 =
      .error .panic := readArray_eq_panic hshort
  simp only [hread, error_bind]

theorem needs_verackProcessing : Needs 24 (verackProcessing sha256) := by
  refine .bind (errorFree_readArray _ _ _) fun bytesLength => ?_
  intro bytes hshort
  have hread : readArray 4 (ErrorParsing.conversionError {}) bytes 20 =
      .error .panic := readArray_eq_panic hshort
  simp only [hread, error_bind]

theorem rawByteProcessing_lt_fields {command : ByteArr 12}
    (hcommand : StartsCommand buffer command) (hknown : Known command)
    (hlength : buffer.length < 24) :
    rawByteProcessing sha256 buffer = .error .panic := by
  have hmagic := readArray_magic hcommand.magic
  have hread := readArray_command hcommand
  have hversion : messageTypeDefinition bytesVersion = .versionMessage := rfl
  have hverack : messageTypeDefinition bytesVerack = .verackMessage := by decide
  obtain rfl | rfl := hknown
  · simp [rawByteProcessing, hmagic, hread, hversion,
      needs_versionProcessing buffer hlength]
  · simp [rawByteProcessing, hmagic, hread, hverack,
      needs_verackProcessing buffer hlength]

end Front

/-! ## What stands at the front -/

/-- A version frame that has arrived whole, by the length its header
announces. -/
structure VersionArrived (buffer : Bytes) (header : HeaderMessage)
    (payload : Bytes) : Prop where
  eq : buffer = header.serializeHeaderMessage ++ payload
  magic : header.magicBytes = Wire.magicBytes
  command : header.command = bytesVersion
  whole : header.length.toNat ≤ payload.length

/-- The header of a version frame, with a part of what it announces behind
it. -/
structure VersionAwaited (buffer : Bytes) (header : HeaderMessage)
    (payload : Bytes) : Prop where
  eq : buffer = header.serializeHeaderMessage ++ payload
  magic : header.magicBytes = Wire.magicBytes
  command : header.command = bytesVersion
  short : payload.length < header.length.toNat

/-- All that the parser slices lies inside the buffer. -/
structure ReadsInside (buffer : Bytes) : Prop where
  magic : 4 ≤ buffer.length
  command : StartsMagic buffer → 16 ≤ buffer.length
  fields : ∀ command, Known command → StartsCommand buffer command →
    24 ≤ buffer.length
  payload : ∀ header payload, VersionArrived buffer header payload →
    VersionFits payload

/-- A version frame of which the decoder takes more bytes than are allowed. -/
inductive TooLarge (buffer : Bytes) : Prop where
  | intro {header : HeaderMessage} {payload : Bytes} {message : VersionMessage}
      {length : ℕ} (harrived : VersionArrived buffer header payload)
      (hdecode : VersionMessage.unserializeVersionMessage payload =
        .ok (message, length))
      (hsize : maxSizePayload < length)

/-- A frame that the parser accepts: its message, and the length of the
payload the parser reports for it. -/
inductive FrameAtFront (sha256 : Bytes → ByteArr 32) (buffer : Bytes) :
    MessagePayload → ℕ → Prop where
  | version {header : HeaderMessage} {payload : Bytes}
      {message : VersionMessage} {length : ℕ}
      (harrived : VersionArrived buffer header payload)
      (hdecode : VersionMessage.unserializeVersionMessage payload =
        .ok (message, length))
      (hsize : length ≤ maxSizePayload)
      (hchecksum : header.checksum =
        checksumCalculate sha256 message.serializeVersionMessage) :
      FrameAtFront sha256 buffer (.version message) length
  | verack {header : HeaderMessage} {payload : Bytes}
      (heq : buffer = header.serializeHeaderMessage ++ payload)
      (hmagic : header.magicBytes = Wire.magicBytes)
      (hcommand : header.command = bytesVerack)
      (hchecksum : header.checksum = checksumCalculate sha256 [0]) :
      FrameAtFront sha256 buffer (.verack {}) 0

/-- What the parser returns, with what it has found. -/
inductive ParserResult (sha256 : Bytes → ByteArr 32) (buffer : Bytes) :
    Fallible ErrorParsing (Option (MessagePayload × ℕ)) → Prop where
  | overrun (houtside : ¬ReadsInside buffer) :
      ParserResult sha256 buffer (.error .panic)
  | refused {reason : ErrorParsing} (hreason : reason ≠ .largePayloadSize) :
      ParserResult sha256 buffer (fail reason)
  | tooLarge (hlarge : TooLarge buffer) :
      ParserResult sha256 buffer (fail .largePayloadSize)
  | waiting {header : HeaderMessage} {payload : Bytes}
      (hawaited : VersionAwaited buffer header payload) :
      ParserResult sha256 buffer (.ok none)
  | frame {message : MessagePayload} {length : ℕ}
      (hframe : FrameAtFront sha256 buffer message length) :
      ParserResult sha256 buffer (.ok (some (message, length)))

section Result

variable {sha256 : Bytes → ByteArr 32} {buffer : Bytes}

/-- The branch of a version frame, behind its header. -/
theorem rawByteProcessing_version_result {header : HeaderMessage}
    {payload : Bytes} (heq : buffer = header.serializeHeaderMessage ++ payload)
    (hmagic : header.magicBytes = Wire.magicBytes)
    (hcommand : header.command = bytesVersion) :
    ParserResult sha256 buffer (rawByteProcessing sha256 buffer) := by
  rw [heq, rawByteProcessing_version hmagic hcommand, ← heq]
  split
  case isTrue hshort => exact .waiting ⟨heq, hmagic, hcommand, hshort⟩
  case isFalse hwhole =>
    have harrived : VersionArrived buffer header payload :=
      ⟨heq, hmagic, hcommand, not_lt.mp hwhole⟩
    cases hdecode : VersionMessage.unserializeVersionMessage payload with
    | error fault =>
        cases fault with
        | panic =>
            refine .overrun fun hinside => ?_
            exact (unserializeVersionMessage_panic_iff payload).mp hdecode
              (hinside.payload header payload harrived)
        | error reason =>
            exact @ParserResult.refused sha256 buffer
              (.errorLowLevelParsing reason) nofun
    | ok decoded =>
        obtain ⟨message, length⟩ := decoded
        simp only [mapError_ok, ok_bind]
        split
        case isTrue hsize => exact .tooLarge ⟨harrived, hdecode, hsize⟩
        case isFalse hsize =>
          split
          case isTrue => exact .refused nofun
          case isFalse hchecksum =>
            exact .frame (.version harrived hdecode (not_lt.mp hsize)
              (not_not.mp hchecksum))

theorem rawByteProcessing_result (buffer : Bytes) :
    ParserResult sha256 buffer (rawByteProcessing sha256 buffer) := by
  by_cases hfour : 4 ≤ buffer.length
  swap
  · rw [rawByteProcessing_short sha256 (not_le.mp hfour)]
    exact .overrun fun hinside => hfour hinside.magic
  by_cases hmagic : StartsMagic buffer
  swap
  · rw [rawByteProcessing_of_not_magic hfour hmagic]
    exact .refused nofun
  by_cases hsixteen : 16 ≤ buffer.length
  swap
  · rw [rawByteProcessing_lt_command hmagic (not_le.mp hsixteen)]
    exact .overrun fun hinside => hsixteen (hinside.command hmagic)
  obtain ⟨command, hcommand⟩ := exists_startsCommand hmagic hsixteen
  obtain hknown | huncertain := known_or_uncertain command
  swap
  · rw [rawByteProcessing_uncertain hcommand huncertain]
    exact .refused nofun
  by_cases hlength : 24 ≤ buffer.length
  swap
  · rw [rawByteProcessing_lt_fields hcommand hknown (not_le.mp hlength)]
    exact .overrun fun hinside =>
      hlength (hinside.fields command hknown hcommand)
  -- The whole header has arrived.
  obtain ⟨header, hbuffer⟩ := exists_header hlength
  rw [hbuffer] at hcommand
  obtain ⟨hmagic, rfl⟩ := (startsCommand_header header _ command).mp hcommand
  obtain hversion | hverack := hknown
  · exact rawByteProcessing_version_result hbuffer hmagic hversion
  · rw [hbuffer, rawByteProcessing_verack hmagic hverack, ← hbuffer]
    split
    case isTrue hchecksum => exact .frame (.verack hbuffer hmagic hverack hchecksum)
    case isFalse => exact .refused nofun

/-- A buffer with fewer bytes than a header is refused or makes the parser
panic. -/
theorem rawByteProcessing_lt_header (hlength : buffer.length < 24) :
    ∃ reason, rawByteProcessing sha256 buffer = .error reason := by
  have hheader (header : HeaderMessage) (payload : Bytes) :
      buffer ≠ header.serializeHeaderMessage ++ payload := by
    rintro rfl
    simp at hlength
  have hresult := @rawByteProcessing_result sha256 buffer
  generalize rawByteProcessing sha256 buffer = result at hresult ⊢
  cases hresult with
  | overrun => exact ⟨_, rfl⟩
  | refused => exact ⟨_, rfl⟩
  | tooLarge => exact ⟨_, rfl⟩
  | waiting hawaited => exact absurd hawaited.eq (hheader _ _)
  | frame hframe =>
      cases hframe with
      | version harrived => exact absurd harrived.eq (hheader _ _)
      | verack heq => exact absurd heq (hheader _ _)

/-- Behind the header of a version frame the payload decoder is the only one
that can leave the buffer. -/
theorem rawByteProcessing_overrun {header : HeaderMessage} {payload : Bytes}
    (harrived : VersionArrived buffer header payload)
    (hoverrun : ¬VersionFits payload) :
    rawByteProcessing sha256 buffer = .error .panic := by
  rw [harrived.eq, rawByteProcessing_version harrived.magic harrived.command,
    if_neg (not_lt.mpr harrived.whole),
    (unserializeVersionMessage_panic_iff payload).mpr hoverrun]
  rfl

theorem rawByteProcessing_ne_panic_iff :
    rawByteProcessing sha256 buffer ≠ .error .panic ↔ ReadsInside buffer := by
  constructor
  · intro hsafe
    have hnot {condition : Prop}
        (hpanic : ¬condition → rawByteProcessing sha256 buffer = .error .panic) :
        condition := by
      by_contra hcondition
      exact hsafe (hpanic hcondition)
    refine ⟨hnot fun hshort => ?_, fun hmagic => hnot fun hshort => ?_,
      fun command hknown hcommand => hnot fun hshort => ?_,
      fun header payload harrived => hnot fun hoverrun => ?_⟩
    · exact rawByteProcessing_short sha256 (not_le.mp hshort)
    · exact rawByteProcessing_lt_command hmagic (not_le.mp hshort)
    · exact rawByteProcessing_lt_fields hcommand hknown (not_le.mp hshort)
    · exact rawByteProcessing_overrun harrived hoverrun
  · intro hinside hpanic
    have hresult := @rawByteProcessing_result sha256 buffer
    rw [hpanic] at hresult
    cases hresult with
    | overrun houtside => exact houtside hinside

theorem rawByteProcessing_some_iff {message : MessagePayload} {length : ℕ} :
    rawByteProcessing sha256 buffer = .ok (some (message, length)) ↔
      FrameAtFront sha256 buffer message length := by
  constructor
  · intro hparse
    have hresult := @rawByteProcessing_result sha256 buffer
    rw [hparse] at hresult
    cases hresult with
    | frame hframe => exact hframe
  · intro hframe
    cases hframe with
    | version harrived hdecode hsize hchecksum =>
        rw [harrived.eq,
          rawByteProcessing_version harrived.magic harrived.command, hdecode]
        simp [not_lt.mpr harrived.whole, not_lt.mpr hsize, hchecksum]
    | verack heq hmagic hcommand hchecksum =>
        rw [heq, rawByteProcessing_verack hmagic hcommand, if_pos hchecksum]

theorem rawByteProcessing_large_iff :
    rawByteProcessing sha256 buffer = fail .largePayloadSize ↔
      TooLarge buffer := by
  constructor
  · intro hparse
    have hresult := @rawByteProcessing_result sha256 buffer
    rw [hparse] at hresult
    cases hresult with
    | refused hreason => exact absurd rfl hreason
    | tooLarge hlarge => exact hlarge
  · rintro ⟨harrived, hdecode, hsize⟩
    rw [harrived.eq,
      rawByteProcessing_version harrived.magic harrived.command, hdecode]
    simp [not_lt.mpr harrived.whole, hsize]

end Result

/-! ## Accepted frames -/

section Accepted

variable {sha256 : Bytes → ByteArr 32} {buffer : Bytes}
  {message : MessagePayload} {length : ℕ}

theorem VersionArrived.append {header : HeaderMessage} {payload : Bytes}
    (harrived : VersionArrived buffer header payload) (rest : Bytes) :
    VersionArrived (buffer ++ rest) header (payload ++ rest) where
  eq := by rw [harrived.eq, List.append_assoc]
  magic := harrived.magic
  command := harrived.command
  whole := by
    rw [List.length_append]
    exact harrived.whole.trans (Nat.le_add_right _ _)

/-- An accepted frame stays accepted when more bytes arrive behind it. -/
theorem FrameAtFront.append
    (hframe : FrameAtFront sha256 buffer message length) (rest : Bytes) :
    FrameAtFront sha256 (buffer ++ rest) message length := by
  cases hframe with
  | version harrived hdecode hsize hchecksum =>
      exact .version (harrived.append rest)
        (stable_unserializeVersionMessage _ rest _ hdecode) hsize hchecksum
  | verack heq hmagic hcommand hchecksum =>
      exact .verack (by rw [heq, List.append_assoc]) hmagic hcommand hchecksum

/-- What is drained after a frame lies in the buffer. -/
theorem FrameAtFront.length_le
    (hframe : FrameAtFront sha256 buffer message length) :
    lenHeaderMessage + length ≤ buffer.length := by
  cases hframe with
  | version harrived hdecode =>
      have hinside := (length_unserializeVersionMessage hdecode).2
      simp [harrived.eq, lenHeaderMessage]
      omega
  | verack heq => simp [heq, lenHeaderMessage]

end Accepted

/-! ## Parts of a version frame -/

/-- What has arrived of a frame that is still under way. -/
structure PartOf (buffer whole : Bytes) : Prop where
  nonempty : buffer ≠ []
  prefixed : buffer <+: whole
  proper : buffer ≠ whole

section Parts

variable {sha256 : Bytes → ByteArr 32}

/-- Behind its header, a version frame is waited for exactly as long as fewer
bytes than announced have arrived. -/
theorem rawByteProcessing_version_none_iff {header : HeaderMessage}
    {payload : Bytes} (hmagic : header.magicBytes = Wire.magicBytes)
    (hcommand : header.command = bytesVersion) :
    rawByteProcessing sha256 (header.serializeHeaderMessage ++ payload) =
        .ok none ↔ payload.length < header.length.toNat := by
  rw [rawByteProcessing_version hmagic hcommand]
  split
  case isTrue hshort => simp [hshort]
  case isFalse hwhole =>
    simp only [hwhole, iff_false]
    intro hnone
    obtain ⟨⟨message, length⟩, -, hmessage⟩ := bind_eq_ok_iff.mp hnone
    simp only at hmessage
    split at hmessage
    · cases hmessage
    · split at hmessage <;> cases hmessage

theorem rawByteProcessing_none_iff {buffer : Bytes} :
    rawByteProcessing sha256 buffer = .ok none ↔
      ∃ header payload, VersionAwaited buffer header payload := by
  constructor
  · intro hwait
    have hresult := @rawByteProcessing_result sha256 buffer
    rw [hwait] at hresult
    cases hresult with
    | waiting hawaited => exact ⟨_, _, hawaited⟩
  · rintro ⟨header, payload, rfl, hmagic, hcommand, hshort⟩
    exact (rawByteProcessing_version_none_iff hmagic hcommand).mpr hshort

theorem rawByteProcessing_part_iff (version : VersionMessage) {buffer : Bytes}
    (hpart : PartOf buffer (frame sha256 (.version version))) :
    rawByteProcessing sha256 buffer = .ok none ↔
      lenHeaderMessage ≤ buffer.length ∧
        buffer.length < lenHeaderMessage + version.lengthVersionMessage.toNat := by
  by_cases hlength : lenHeaderMessage ≤ buffer.length
  swap
  · obtain ⟨reason, hfault⟩ :=
      @rawByteProcessing_lt_header sha256 buffer (not_le.mp hlength)
    simp [hfault, hlength]
  -- The part of the frame begins with the whole header of the message.
  have hheader : (createHeaderMessage sha256
      (.version version)).serializeHeaderMessage <+: buffer := by
    refine List.prefix_of_prefix_length_le ⟨_, (frame_eq sha256 _).symm⟩
      hpart.prefixed ?_
    rwa [HeaderMessage.length_serializeHeaderMessage]
  obtain ⟨payload, rfl⟩ := hheader
  rw [rawByteProcessing_version_none_iff rfl rfl, List.length_append,
    HeaderMessage.length_serializeHeaderMessage]
  simp [lenHeaderMessage, createHeaderMessage,
    HeaderMessage.createHeaderMessage]

/-- The parser slices inside the buffer exactly when the buffer is long enough
for what its front announces, and it waits for the rest of a version frame
exactly when the whole header has arrived. -/
theorem rawByteProcessing_total_iff :
    (∀ buffer, rawByteProcessing sha256 buffer ≠ .error .panic ↔
        ReadsInside buffer) ∧
      ∀ version buffer, PartOf buffer (frame sha256 (.version version)) →
        (rawByteProcessing sha256 buffer = .ok none ↔
          lenHeaderMessage ≤ buffer.length ∧ buffer.length <
            lenHeaderMessage + version.lengthVersionMessage.toNat) :=
  ⟨fun _ => rawByteProcessing_ne_panic_iff,
    fun version _ hpart => rawByteProcessing_part_iff version hpart⟩

end Parts

/-- The first bytes of the frame of `plainVersion`. -/
theorem partOf_plainFrame {size : ℕ} (hpos : 0 < size) (hlt : size < 117) :
    PartOf (plainFrame.take size) plainFrame := by
  have hlength : (plainFrame.take size).length = size := by
    rw [List.length_take, length_plainFrame, min_eq_left hlt.le]
  refine ⟨?_, List.take_prefix _ _, ?_⟩
  · intro hempty
    rw [hempty, List.length_nil] at hlength
    omega
  · intro heq
    rw [heq, length_plainFrame] at hlength
    omega

theorem rawByteProcessing_plainFrame_header :
    PartOf (plainFrame.take 24) plainFrame ∧
      rawByteProcessing zeroDigest (plainFrame.take 24) = .ok none := by
  have hpart := partOf_plainFrame (by decide : 0 < 24) (by decide)
  have hlength : (plainFrame.take 24).length = 24 := by
    rw [List.length_take, length_plainFrame]
    rfl
  refine ⟨hpart, ((rawByteProcessing_total_iff.2 plainVersion _) hpart).mpr ?_⟩
  rw [hlength]
  decide

/-- The first byte of a frame is a read the reader can get, and it makes the
parser panic. -/
theorem rawByteProcessing_plainFrame_byte :
    PartOf (plainFrame.take 1) plainFrame ∧
      rawByteProcessing zeroDigest (plainFrame.take 1) = .error .panic ∧
      startTaskRead zeroDigest [] [.ok (plainFrame.take 1)] =
        ([], some .panicked) := by
  have hpart := partOf_plainFrame (by decide : 0 < 1) (by decide)
  have hshort : (plainFrame.take 1).length < 4 := by
    rw [List.length_take]
    omega
  exact ⟨hpart, rawByteProcessing_short zeroDigest hshort,
    startTaskRead_short zeroDigest [] hpart.nonempty hshort⟩

end P2PNetwork.FrameParser
