import TgWsProxy.FakeTls.ClientHello

/-!
# The body of a ClientHello

The body of a ClientHello as a list of blocks, each of which carries the bound that its
length field needs. The parser of the body returns these blocks where they are there, and
otherwise nothing: no index, slice or sum of it is ever out of range. The server name and
the cipher suite that it returns are found in the blocks.
-/

namespace TgWsProxy.FakeTls

open Foundation.Machine TgWsProxy.Crypto

/-! ## Accesses that succeed -/

@[simp] theorem ok_bind {α β : Type} (value : α) (next : α → Except Fault β) :
    ((Except.ok value : Except Fault α) >>= next) = next value := rfl

theorem byteAt_of_lt {bytes : Bytes} {index : Nat} (hindex : index < bytes.length) :
    byteAt bytes index = .ok (bytes.getD index 0) := by
  simp [byteAt, hindex]

theorem byteAt_append {bytes front back : Bytes} {byte : UInt8} {index : Nat}
    (hbytes : bytes = front ++ byte :: back) (hindex : index = front.length) :
    byteAt bytes index = .ok byte := by
  simp [byteAt, hbytes, hindex]

theorem sliceAt_of_le {bytes : Bytes} {start stop : Nat} (hstart : start ≤ stop)
    (hstop : stop ≤ bytes.length) : sliceAt bytes start stop = .ok (bytes.extract start stop) :=
  if_pos ⟨hstart, hstop⟩

theorem sliceAt_append {bytes front middle back : Bytes} {start stop : Nat}
    (hbytes : bytes = front ++ middle ++ back) (hstart : start = front.length)
    (hstop : stop = front.length + middle.length) : sliceAt bytes start stop = .ok middle := by
  subst hbytes hstart hstop
  rw [sliceAt_of_le (Nat.le_add_right _ _) (by simp)]
  simp [List.extract_eq_take_drop]

theorem usizeSum_nil (width : PointerWidth) (first : Nat) : usizeSum width first [] = .ok first :=
  rfl

theorem usizeSum_cons (width : PointerWidth) {first second : Nat} (rest : List Nat)
    (hsum : first + second < 2 ^ 32) :
    usizeSum width first (second :: rest) = usizeSum width (first + second) rest := by
  rw [usizeSum, PointerWidth.checkedAdd, if_pos (width.le_usizeMax hsum)]

/-- A parser that rejects without a fault, unless `accepts` holds. -/
def RejectsUnless {α : Type} (accepts : Prop) (result : Except Fault (Option α)) : Prop :=
  result = .ok none ∨ accepts

theorem RejectsUnless.check {α : Type} {accepts check : Prop} [Decidable check]
    {next : Except Fault (Option α)} (hnext : ¬ check → RejectsUnless accepts next) :
    RejectsUnless accepts (if check then pure none else next) := by
  split
  next => exact .inl rfl
  next hcheck => exact hnext hcheck

/-! ## Blocks -/

/-- The body of a ClientHello. -/
structure HelloBody where
  version : Block 2
  random : Block 32
  sessionId : Bytes
  cipherSuites : Bytes
  compression : Bytes
  extensions : Bytes
  trailing : Bytes
  sessionId_lt : sessionId.length < 2 ^ 8
  cipherSuites_ge : 2 ≤ cipherSuites.length
  cipherSuites_lt : cipherSuites.length < 2 ^ 16
  compression_lt : compression.length < 2 ^ 8
  extensions_lt : extensions.length < 2 ^ 16

def HelloBody.encode (body : HelloBody) : Bytes :=
  body.version.toList ++ body.random.toList ++
    [UInt8.ofNat body.sessionId.length] ++ body.sessionId ++
    u16ToBeBytes body.cipherSuites.length ++ body.cipherSuites ++
    [UInt8.ofNat body.compression.length] ++ body.compression ++
    u16ToBeBytes body.extensions.length ++ body.extensions ++
    body.trailing

/-- A body in the order in which it is read, with the length fields as they stand. -/
structure HelloSplit (bytes front sessionId suites compression extensions trailing : Bytes)
    (sessionLen suites0 suites1 compressionLen extensions0 extensions1 : UInt8) : Prop where
  bytes_eq : bytes = front ++ sessionLen :: (sessionId ++ suites0 :: suites1 :: (suites ++
    compressionLen :: (compression ++ extensions0 :: extensions1 :: (extensions ++ trailing))))
  front_length : front.length = 34
  sessionId_length : sessionId.length = sessionLen.toNat
  suites_length : suites.length = u16FromBeBytes suites0 suites1
  compression_length : compression.length = compressionLen.toNat
  extensions_length : extensions.length = u16FromBeBytes extensions0 extensions1

/-- The accesses of the parser to a body, and what each of them finds. -/
structure HelloReads (bytes sessionId suites extensions : Bytes) (sessionEnd suitesEnd p : Nat)
    (sessionLen suites0 suites1 compressionLen extensions0 extensions1 : UInt8) : Prop where
  sessionLen : byteAt bytes 34 = .ok sessionLen
  sessionId : sliceAt bytes 35 sessionEnd = .ok sessionId
  suites0 : byteAt bytes sessionEnd = .ok suites0
  suites1 : byteAt bytes (sessionEnd + 1) = .ok suites1
  suites : sliceAt bytes (sessionEnd + 2) suitesEnd = .ok suites
  compressionLen : bytes[suitesEnd]? = some compressionLen
  extensions0 : byteAt bytes p = .ok extensions0
  extensions1 : byteAt bytes (p + 1) = .ok extensions1
  extensions : sliceAt bytes (p + 2) (p + 2 + extensions.length) = .ok extensions

section Split

variable {bytes front sessionId suites compression extensions trailing : Bytes}
  {sessionLen suites0 suites1 compressionLen extensions0 extensions1 : UInt8}

theorem HelloSplit.length_eq
    (hsplit : HelloSplit bytes front sessionId suites compression extensions trailing sessionLen
      suites0 suites1 compressionLen extensions0 extensions1) :
    bytes.length = 40 + sessionId.length + suites.length + compression.length +
      extensions.length + trailing.length := by
  rw [hsplit.bytes_eq]
  simp [hsplit.front_length]
  omega

theorem HelloSplit.reads {sessionEnd suitesEnd p : Nat}
    (hsplit : HelloSplit bytes front sessionId suites compression extensions trailing sessionLen
      suites0 suites1 compressionLen extensions0 extensions1)
    (hsessionEnd : sessionEnd = 35 + sessionLen.toNat)
    (hsuitesEnd : suitesEnd = sessionEnd + 2 + suites.length)
    (hp : p = suitesEnd + (1 + compressionLen.toNat)) :
    HelloReads bytes sessionId suites extensions sessionEnd suitesEnd p sessionLen suites0 suites1
      compressionLen extensions0 extensions1 := by
  obtain ⟨hbytes, hfront, hsession, -, hcompression, -⟩ := hsplit
  -- The bytes before and after the end of each block.
  obtain ⟨rest3, hrest3⟩ : ∃ rest, rest = extensions0 :: extensions1 :: (extensions ++ trailing) :=
    ⟨_, rfl⟩
  obtain ⟨rest2, hrest2⟩ : ∃ rest, rest = compressionLen :: (compression ++ rest3) := ⟨_, rfl⟩
  obtain ⟨rest1, hrest1⟩ : ∃ rest, rest = suites0 :: suites1 :: (suites ++ rest2) := ⟨_, rfl⟩
  obtain ⟨front1, hfront1⟩ : ∃ list, list = front ++ sessionLen :: sessionId := ⟨_, rfl⟩
  obtain ⟨front2, hfront2⟩ : ∃ list, list = front1 ++ suites0 :: suites1 :: suites := ⟨_, rfl⟩
  obtain ⟨front3, hfront3⟩ : ∃ list, list = front2 ++ compressionLen :: compression := ⟨_, rfl⟩
  have hbytes1 : bytes = front1 ++ rest1 := by
    simp [hbytes, hrest1, hrest2, hrest3, hfront1]
  have hbytes2 : bytes = front2 ++ rest2 := by
    simp [hbytes1, hrest1, hfront2]
  have hbytes3 : bytes = front3 ++ rest3 := by
    simp [hbytes2, hrest2, hfront3]
  have hlength1 : front1.length = sessionEnd := by
    simp [hfront1, hfront, hsession, hsessionEnd]
    omega
  have hlength2 : front2.length = suitesEnd := by
    simp [hfront2, hlength1, hsuitesEnd]
    omega
  have hlength3 : front3.length = p := by
    simp [hfront3, hlength2, hcompression, hp]
    omega
  have hsessionByte : byteAt bytes 34 = .ok sessionLen := byteAt_append hbytes hfront.symm
  have hsessionSlice : sliceAt bytes 35 sessionEnd = .ok sessionId :=
    @sliceAt_append bytes (front ++ [sessionLen]) sessionId rest1 _ _ (by simp [hbytes1, hfront1])
      (by simp [hfront]) (by simp [hfront, hsessionEnd, hsession])
  have hsuites0 : byteAt bytes sessionEnd = .ok suites0 :=
    byteAt_append (hbytes1.trans (by rw [hrest1])) hlength1.symm
  have hsuites1 : byteAt bytes (sessionEnd + 1) = .ok suites1 :=
    @byteAt_append bytes (front1 ++ [suites0]) (suites ++ rest2) _ _
      (by simp [hbytes1, hrest1]) (by simp [hlength1])
  have hsuitesSlice : sliceAt bytes (sessionEnd + 2) suitesEnd = .ok suites :=
    @sliceAt_append bytes (front1 ++ [suites0, suites1]) suites rest2 _ _
      (by simp [hbytes1, hrest1]) (by simp [hlength1]) (by simp [hlength1, hsuitesEnd])
  have hcompressionByte : bytes[suitesEnd]? = some compressionLen := by
    rw [hbytes2, hrest2, ← hlength2, List.getElem?_append_right (Nat.le_refl _), Nat.sub_self]
    rfl
  have hextensions0 : byteAt bytes p = .ok extensions0 :=
    byteAt_append (hbytes3.trans (by rw [hrest3])) hlength3.symm
  have hextensions1 : byteAt bytes (p + 1) = .ok extensions1 :=
    @byteAt_append bytes (front3 ++ [extensions0]) (extensions ++ trailing) _ _
      (by simp [hbytes3, hrest3]) (by simp [hlength3])
  have hextensionsSlice : sliceAt bytes (p + 2) (p + 2 + extensions.length) = .ok extensions :=
    @sliceAt_append bytes (front3 ++ [extensions0, extensions1]) extensions trailing _ _
      (by simp [hbytes3, hrest3]) (by simp [hlength3]) (by simp [hlength3])
  exact ⟨hsessionByte, hsessionSlice, hsuites0, hsuites1, hsuitesSlice, hcompressionByte,
    hextensions0, hextensions1, hextensionsSlice⟩

/-- A body that is cut into its blocks passes every check. -/
theorem HelloSplit.parse
    (hsplit : HelloSplit bytes front sessionId suites compression extensions trailing sessionLen
      suites0 suites1 compressionLen extensions0 extensions1) (hsuites : 2 ≤ suites.length)
    (width : PointerWidth) (random : Block 32) :
    parseClientHelloBody width random bytes = (do
      let hostname ← parseSniExtension width extensions
      return some ⟨random, sessionId, selectTls13CipherSuite suites, hostname⟩) := by
  have hlength := hsplit.length_eq
  have hsession := hsplit.sessionId_length
  have hcompression := hsplit.compression_length
  have hsuitesLen := hsplit.suites_length
  have hextensions := hsplit.extensions_length
  have hsessionLt := sessionLen.toNat_lt
  have hcompressionLt := compressionLen.toNat_lt
  have hsuitesLt := u16FromBeBytes_lt suites0 suites1
  have hextensionsLt := u16FromBeBytes_lt extensions0 extensions1
  obtain ⟨sessionEnd, hsessionEnd⟩ : ∃ stop, stop = 35 + sessionLen.toNat := ⟨_, rfl⟩
  obtain ⟨suitesEnd, hsuitesEnd⟩ : ∃ stop, stop = sessionEnd + 2 + suites.length := ⟨_, rfl⟩
  obtain ⟨p, hp⟩ : ∃ stop, stop = suitesEnd + (1 + compressionLen.toNat) := ⟨_, rfl⟩
  have hreads := hsplit.reads hsessionEnd hsuitesEnd hp
  unfold parseClientHelloBody
  rw [if_neg (by omega), hreads.sessionLen]
  simp only [ok_bind]
  rw [usizeSum_cons width _ (by omega), usizeSum_nil]
  simp only [ok_bind, ← hsessionEnd]
  rw [usizeSum_cons width _ (by omega), usizeSum_nil]
  simp only [ok_bind]
  rw [if_neg (by omega), hreads.sessionId, hreads.suites0]
  simp only [ok_bind]
  rw [usizeSum_cons width _ (by omega), usizeSum_nil]
  simp only [ok_bind]
  rw [hreads.suites1]
  simp only [ok_bind, ← hsuitesLen]
  rw [if_neg (by omega), usizeSum_cons width _ (by omega), usizeSum_cons width _ (by omega),
    usizeSum_cons width _ (by omega), usizeSum_nil]
  simp only [ok_bind]
  rw [if_neg (by omega)]
  rw [usizeSum_cons width _ (by omega), usizeSum_cons width _ (by omega), usizeSum_nil]
  simp only [ok_bind, ← hsuitesEnd]
  rw [hreads.suites]
  simp only [ok_bind, hreads.compressionLen]
  rw [usizeSum_cons width _ (by omega), usizeSum_nil]
  simp only [ok_bind]
  rw [usizeSum_cons width _ (by omega), usizeSum_nil]
  simp only [ok_bind, ← hp]
  rw [usizeSum_cons width _ (by omega), usizeSum_nil]
  simp only [ok_bind]
  rw [if_neg (by omega), hreads.extensions0, usizeSum_cons width _ (by omega), usizeSum_nil]
  simp only [ok_bind]
  rw [hreads.extensions1]
  simp only [ok_bind, ← hextensions]
  rw [usizeSum_cons width _ (by omega), usizeSum_nil]
  simp only [ok_bind]
  rw [if_neg (by omega), hreads.extensions]
  rfl

end Split

/-! ## Rejecting without a fault -/

theorem getD_cons_drop {bytes : Bytes} {index : Nat} (hindex : index < bytes.length) :
    bytes.getD index 0 :: bytes.drop (index + 1) = bytes.drop index := by
  rw [List.drop_eq_getElem_cons hindex]
  simp [hindex]

theorem take_drop_append_drop (bytes : Bytes) (start len : Nat) :
    (bytes.drop start).take len ++ bytes.drop (start + len) = bytes.drop start := by
  rw [← List.drop_drop, List.take_append_drop]

theorem length_take_drop {bytes : Bytes} {start len : Nat} (hle : start + len ≤ bytes.length) :
    ((bytes.drop start).take len).length = len := by
  rw [List.length_take, List.length_drop]
  omega

/-- The body can be cut into blocks. -/
def HelloSplits (bytes : Bytes) : Prop :=
  ∃ front sessionId suites compression extensions trailing sessionLen suites0 suites1
    compressionLen extensions0 extensions1,
    HelloSplit bytes front sessionId suites compression extensions trailing sessionLen suites0
      suites1 compressionLen extensions0 extensions1 ∧ 2 ≤ suites.length

/-- A body that passes the checks of the parser can be cut where it looked. -/
theorem helloSplits_of_le {bytes : Bytes} {sessionEnd suitesLen suitesEnd p extensionsLen : Nat}
    (hsessionEnd : sessionEnd = 35 + (bytes.getD 34 0).toNat)
    (hsuitesLen : suitesLen =
      u16FromBeBytes (bytes.getD sessionEnd 0) (bytes.getD (sessionEnd + 1) 0))
    (hsuites : 2 ≤ suitesLen) (hsuitesEnd : suitesEnd = sessionEnd + 2 + suitesLen)
    (hp : p = suitesEnd + (1 + (bytes.getD suitesEnd 0).toNat))
    (hextensionsLen : extensionsLen = u16FromBeBytes (bytes.getD p 0) (bytes.getD (p + 1) 0))
    (hle : p + 2 + extensionsLen ≤ bytes.length) : HelloSplits bytes := by
  have hend : suitesEnd + 1 + (bytes.getD suitesEnd 0).toNat = p := by omega
  refine ⟨bytes.take 34, (bytes.drop 35).take (bytes.getD 34 0).toNat,
    (bytes.drop (sessionEnd + 2)).take suitesLen,
    (bytes.drop (suitesEnd + 1)).take (bytes.getD suitesEnd 0).toNat,
    (bytes.drop (p + 2)).take extensionsLen, bytes.drop (p + 2 + extensionsLen),
    bytes.getD 34 0, bytes.getD sessionEnd 0, bytes.getD (sessionEnd + 1) 0,
    bytes.getD suitesEnd 0, bytes.getD p 0, bytes.getD (p + 1) 0, ⟨?_, ?_, ?_, ?_, ?_, ?_⟩, ?_⟩
  · rw [take_drop_append_drop, getD_cons_drop (by omega), getD_cons_drop (by omega), ← hend,
      take_drop_append_drop, getD_cons_drop (by omega), hsuitesEnd, take_drop_append_drop,
      getD_cons_drop (by omega), getD_cons_drop (by omega), hsessionEnd, take_drop_append_drop,
      getD_cons_drop (by omega), List.take_append_drop]
  · exact List.length_take_of_le (by omega)
  · exact length_take_drop (by omega)
  · rw [length_take_drop (by omega), hsuitesLen]
  · exact length_take_drop (by omega)
  · rw [length_take_drop (by omega), hextensionsLen]
  · rwa [length_take_drop (by omega)]

theorem parseClientHelloBody_rejects (width : PointerWidth) (random : Block 32) {bytes : Bytes}
    (hbytes : bytes.length < 2 ^ 16) :
    RejectsUnless (HelloSplits bytes) (parseClientHelloBody width random bytes) := by
  unfold parseClientHelloBody
  refine .check fun hbody => ?_
  have hsessionLt := (bytes.getD 34 0).toNat_lt
  rw [byteAt_of_lt (by omega)]
  simp only [ok_bind]
  rw [usizeSum_cons width _ (by omega), usizeSum_nil]
  obtain ⟨sessionEnd, hsessionEnd⟩ : ∃ stop, stop = 35 + (bytes.getD 34 0).toNat := ⟨_, rfl⟩
  simp only [ok_bind, ← hsessionEnd]
  rw [usizeSum_cons width _ (by omega), usizeSum_nil]
  refine .check fun hsession => ?_
  rw [sliceAt_of_le (by omega) (by omega), byteAt_of_lt (by omega)]
  simp only [ok_bind]
  rw [usizeSum_cons width _ (by omega), usizeSum_nil]
  simp only [ok_bind]
  rw [byteAt_of_lt (by omega)]
  obtain ⟨suitesLen, hsuitesLen⟩ : ∃ len, len =
    u16FromBeBytes (bytes.getD sessionEnd 0) (bytes.getD (sessionEnd + 1) 0) := ⟨_, rfl⟩
  have hsuitesLt := u16FromBeBytes_lt (bytes.getD sessionEnd 0) (bytes.getD (sessionEnd + 1) 0)
  simp only [ok_bind, ← hsuitesLen]
  refine .check fun hsuites => ?_
  rw [usizeSum_cons width _ (by omega), usizeSum_cons width _ (by omega),
    usizeSum_cons width _ (by omega), usizeSum_nil]
  refine .check fun hsuitesFit => ?_
  rw [usizeSum_cons width _ (by omega), usizeSum_cons width _ (by omega), usizeSum_nil]
  obtain ⟨suitesEnd, hsuitesEnd⟩ : ∃ stop, stop = sessionEnd + 2 + suitesLen := ⟨_, rfl⟩
  simp only [ok_bind, ← hsuitesEnd]
  rw [sliceAt_of_le (by omega) (by omega)]
  have hcompressionLt := (bytes.getD suitesEnd 0).toNat_lt
  have hcompression : bytes[suitesEnd]? = some (bytes.getD suitesEnd 0) := by
    have hlt : suitesEnd < bytes.length := by omega
    simp [hlt]
  simp only [ok_bind, hcompression]
  rw [usizeSum_cons width _ (by omega), usizeSum_nil]
  simp only [ok_bind]
  rw [usizeSum_cons width _ (by omega), usizeSum_nil]
  obtain ⟨p, hp⟩ : ∃ stop, stop = suitesEnd + (1 + (bytes.getD suitesEnd 0).toNat) := ⟨_, rfl⟩
  simp only [ok_bind, ← hp]
  rw [usizeSum_cons width _ (by omega), usizeSum_nil]
  refine .check fun hcompressionFit => ?_
  rw [byteAt_of_lt (by omega), usizeSum_cons width _ (by omega), usizeSum_nil]
  simp only [ok_bind]
  rw [byteAt_of_lt (by omega)]
  obtain ⟨extensionsLen, hextensionsLen⟩ : ∃ len, len =
    u16FromBeBytes (bytes.getD p 0) (bytes.getD (p + 1) 0) := ⟨_, rfl⟩
  have hextensionsLt := u16FromBeBytes_lt (bytes.getD p 0) (bytes.getD (p + 1) 0)
  simp only [ok_bind, ← hextensionsLen]
  rw [usizeSum_cons width _ (by omega), usizeSum_nil]
  simp only [ok_bind]
  refine .check fun hextensionsFit => .inr ?_
  exact helloSplits_of_le hsessionEnd hsuitesLen (by omega) hsuitesEnd hp hextensionsLen (by omega)

/-! ## The server name -/

theorem utf8Bytes_of_fromUTF8 {bytes : Bytes} {text : String}
    (htext : String.fromUTF8? ⟨bytes.toArray⟩ = some text) : utf8Bytes text = bytes := by
  unfold String.fromUTF8? at htext
  split at htext
  next =>
    cases htext
    rfl
  next => cases htext

theorem fromUTF8_utf8Bytes (text : String) :
    String.fromUTF8? ⟨(utf8Bytes text).toArray⟩ = some text := by
  have hbytes : (⟨(utf8Bytes text).toArray⟩ : ByteArray) = text.toUTF8 := rfl
  rw [hbytes]
  exact dif_pos text.isValidUTF8

/-- The server name parser never faults, and a name it finds is a part of the
extension. -/
theorem parseServerName_ok (width : PointerWidth) {ext : Bytes} (hext : 5 ≤ ext.length) :
    ∃ name, parseServerName width ext = .ok name ∧
      ∀ hostname, name = some hostname → utf8Bytes hostname <:+: ext := by
  have hreject : ∃ name, (pure none : Except Fault (Option String)) = .ok name ∧
      ∀ hostname, name = some hostname → utf8Bytes hostname <:+: ext :=
    ⟨none, rfl, fun _ hnone => by cases hnone⟩
  have hlistLt := u16FromBeBytes_lt (ext.getD 0 0) (ext.getD 1 0)
  have hhostLt := u16FromBeBytes_lt (ext.getD 3 0) (ext.getD 4 0)
  unfold parseServerName
  rw [byteAt_of_lt (by omega), byteAt_of_lt (by omega)]
  simp only [ok_bind]
  rw [usizeSum_cons width _ (by omega), usizeSum_nil]
  simp only [ok_bind]
  split
  next => exact hreject
  next =>
    split
    next => exact hreject
    next =>
      rw [byteAt_of_lt (by omega)]
      simp only [ok_bind]
      split
      next => exact hreject
      next =>
        rw [byteAt_of_lt (by omega), byteAt_of_lt (by omega)]
        simp only [ok_bind]
        rw [usizeSum_cons width _ (by omega), usizeSum_nil]
        simp only [ok_bind]
        split
        next => exact hreject
        next hfits =>
          rw [sliceAt_of_le (by omega) (by omega)]
          refine ⟨_, rfl, fun hostname hname => ?_⟩
          rw [utf8Bytes_of_fromUTF8 hname, List.extract_eq_take_drop]
          exact (List.take_prefix _ _).isInfix.trans (List.drop_suffix _ _).isInfix

/-- One extension of a hello. -/
structure Extension where
  extType : UInt8 × UInt8
  body : Bytes
  fits : body.length < 2 ^ 16

def Extension.encode (ext : Extension) : Bytes :=
  ext.extType.1 :: ext.extType.2 :: (u16ToBeBytes ext.body.length ++ ext.body)

/-- Some extension of type 0 in the block has the name in its body. -/
def NamedIn (extensions : Bytes) (hostname : String) : Prop :=
  ∃ (before : List Extension) (ext : Extension) (after : Bytes),
    extensions = before.flatMap Extension.encode ++ ext.encode ++ after ∧
      ext.extType = (0, 0) ∧ utf8Bytes hostname <:+: ext.body

theorem NamedIn.cons {extensions : Bytes} {hostname : String}
    (hnamed : NamedIn extensions hostname) (ext : Extension) :
    NamedIn (ext.encode ++ extensions) hostname := by
  obtain ⟨before, found, after, rfl, htype, hname⟩ := hnamed
  exact ⟨ext :: before, found, after, by simp, htype, hname⟩

/-- The extension at the head of a block. -/
theorem exists_extension {type0 type1 len0 len1 : UInt8} {rest : Bytes}
    (hlong : ¬ rest.length < u16FromBeBytes len0 len1) :
    ∃ ext : Extension, ext.extType = (type0, type1) ∧
      ext.body = rest.take (u16FromBeBytes len0 len1) ∧
      type0 :: type1 :: len0 :: len1 :: rest =
        ext.encode ++ rest.drop (u16FromBeBytes len0 len1) := by
  have hlength : (rest.take (u16FromBeBytes len0 len1)).length = u16FromBeBytes len0 len1 :=
    List.length_take_of_le (Nat.not_lt.mp hlong)
  refine ⟨⟨(type0, type1), rest.take (u16FromBeBytes len0 len1), ?_⟩, rfl, rfl, ?_⟩
  · rw [hlength]
    exact u16FromBeBytes_lt len0 len1
  · simp [Extension.encode, hlength, u16ToBeBytes_u16FromBeBytes]

theorem u16FromBeBytes_eq_zero {high low : UInt8} (hzero : u16FromBeBytes high low = 0) :
    (high, low) = (0, 0) := by
  have hhigh : high.toNat = 0 := by
    unfold u16FromBeBytes at hzero
    omega
  have hlow : low.toNat = 0 := by
    unfold u16FromBeBytes at hzero
    omega
  exact Prod.ext (UInt8.toNat_inj.mp hhigh) (UInt8.toNat_inj.mp hlow)

/-- The loop over the extensions never faults, and a name it finds belongs to an
extension of type 0. -/
theorem parseSniExtension_ok (width : PointerWidth) (extensions : Bytes) :
    ∃ name, parseSniExtension width extensions = .ok name ∧
      ∀ hostname, name = some hostname → NamedIn extensions hostname := by
  fun_induction parseSniExtension width extensions with
  | case1 type0 type1 len0 len1 rest extLen hshort =>
      exact ⟨none, rfl, fun _ hnone => by cases hnone⟩
  | case2 type0 type1 len0 len1 rest extType extLen hlong ext hskip ih =>
      obtain ⟨name, hname, hnamed⟩ := ih
      obtain ⟨head, -, -, hsplit⟩ := @exists_extension type0 type1 len0 len1 rest hlong
      refine ⟨name, hname, fun hostname hsome => ?_⟩
      rw [hsplit]
      exact (hnamed hostname hsome).cons head
  | case3 type0 type1 len0 len1 rest extType extLen hlong ext hkeep =>
      obtain ⟨htype, hlength⟩ := not_or.mp hkeep
      obtain ⟨name, hname, hnamed⟩ := parseServerName_ok width (Nat.not_lt.mp hlength)
      obtain ⟨head, hheadType, hheadBody, hsplit⟩ :=
        @exists_extension type0 type1 len0 len1 rest hlong
      refine ⟨name, hname, fun hostname hsome => ?_⟩
      refine ⟨[], head, rest.drop extLen, by simpa using hsplit, ?_, ?_⟩
      · rw [hheadType]
        exact u16FromBeBytes_eq_zero (Decidable.not_not.mp htype)
      · rw [hheadBody]
        exact hnamed hostname hsome
  | case4 extensions hshort => exact ⟨none, rfl, fun _ hnone => by cases hnone⟩

/-! ## The cipher suite -/

/-- The aligned pair at `index` is a TLS 1.3 suite with the given second byte. -/
def Tls13At (suites : Bytes) (index : Nat) (low : UInt8) : Prop :=
  suites[2 * index]? = some 0x13 ∧ suites[2 * index + 1]? = some low ∧ 0x01 ≤ low ∧ low ≤ 0x03

/-- The first aligned TLS 1.3 pair, or `0x1301` where there is none. -/
def FirstTls13 (suites : Bytes) (suite : UInt8 × UInt8) : Prop :=
  (∃ index low, Tls13At suites index low ∧ suite = (0x13, low) ∧
      ∀ earlier < index, ∀ other, ¬ Tls13At suites earlier other) ∨
    (∀ index low, ¬ Tls13At suites index low) ∧ suite = (0x13, 0x01)

theorem tls13At_cons_cons {high low byte : UInt8} {suites : Bytes} {index : Nat} :
    Tls13At (high :: low :: suites) (index + 1) byte ↔ Tls13At suites index byte := by
  unfold Tls13At
  have hfirst : 2 * (index + 1) = 2 * index + 1 + 1 := by omega
  rw [hfirst]
  simp only [List.getElem?_cons_succ]

theorem selectTls13CipherSuite_first (suites : Bytes) :
    FirstTls13 suites (selectTls13CipherSuite suites) := by
  fun_induction selectTls13CipherSuite suites with
  | case1 high low rest hsuite =>
      obtain ⟨rfl, hlow⟩ := hsuite
      exact .inl ⟨0, low, ⟨rfl, rfl, hlow⟩, rfl, fun earlier hlt => (Nat.not_lt_zero _ hlt).elim⟩
  | case2 high low rest hother ih =>
      have hhead : ∀ byte, ¬ Tls13At (high :: low :: rest) 0 byte := by
        rintro byte ⟨hhigh, hlow, hrange⟩
        cases hhigh
        cases hlow
        exact hother ⟨rfl, hrange⟩
      rcases ih with ⟨index, byte, hat, hsuite, hfirst⟩ | ⟨hnone, hsuite⟩
      · refine .inl ⟨index + 1, byte, tls13At_cons_cons.mpr hat, hsuite, ?_⟩
        intro earlier hlt other hearlier
        cases earlier with
        | zero => exact hhead other hearlier
        | succ earlier =>
            exact hfirst earlier (Nat.lt_of_succ_lt_succ hlt) other
              (tls13At_cons_cons.mp hearlier)
      · refine .inr ⟨?_, hsuite⟩
        intro index byte hat
        cases index with
        | zero => exact hhead byte hat
        | succ index => exact hnone index byte (tls13At_cons_cons.mp hat)
  | case3 suites hshort =>
      refine .inr ⟨?_, rfl⟩
      rintro index low ⟨-, hlow, -⟩
      obtain ⟨hlt, -⟩ := List.getElem?_eq_some_iff.mp hlow
      match suites, hshort with
      | [], _ => simp at hlt
      | [_], _ => simp at hlt
      | high :: low :: rest, hshort => exact hshort high low rest rfl

end TgWsProxy.FakeTls
