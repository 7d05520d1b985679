import Klein.State.BackendsAgree

/-! Physical keys are unambiguous (`state/state_codec.py`): a component tells where it ends, so
a prefix of a state key is a descriptor and a key, and the order of timestamps is the order of
the keys that begin with them. -/
namespace Klein.State
open Fallible List

section components

theorem component_ok (value encoded : Bytes) :
    component value = .ok encoded ↔ value.length < 2 ^ 32 ∧ encoded = Bytes.ofNat 4 value.length ++ value := by
  unfold component packUnsigned
  split
  next fits =>
    constructor
    · intro ok
      cases ok
      exact ⟨by omega,rfl⟩
    · intro small
      rw [small.2]
      rfl
  next large =>
    constructor
    · intro ok
      cases ok
    · intro small
      exact absurd small.1 (by omega)

theorem readComponent_ok (encoded value rest : Bytes) (ok : readComponent encoded = .ok (value,rest)) :
    ∃ start, component value = .ok start ∧ start ++ rest = encoded := by
  unfold readComponent at ok
  dsimp only at ok
  split at ok
  next => cases ok
  next long =>
    split at ok
    next => cases ok
    next enough =>
      have four : (encoded.take 4).length = 4 := by
        rw [length_take]
        omega
      have small := Bytes.toNat_lt (encoded.take 4)
      rw [four] at small
      have size : ((encoded.drop 4).take (Bytes.toNat (encoded.take 4))).length = Bytes.toNat (encoded.take 4) := by
        rw [length_take]
        omega
      have digits := Bytes.ofNat_toNat (encoded.take 4)
      rw [four] at digits
      cases ok
      refine ⟨encoded.take 4 ++ (encoded.drop 4).take (Bytes.toNat (encoded.take 4)),(component_ok _ _).mpr ⟨?_,?_⟩,?_⟩
      · rw [size]
        exact small
      · rw [size,digits]
      · rw [append_assoc,take_append_drop,take_append_drop]

theorem component_append_inj (first second start start' rest rest' : Bytes) (one : component first = .ok start)
    (two : component second = .ok start') (same : start ++ rest = start' ++ rest') : first = second ∧ rest = rest' := by
  have read := readComponent_component first start rest one
  rw [same,readComponent_component second start' rest' two] at read
  cases read
  exact ⟨rfl,rfl⟩

theorem readStateKey_ok (encoded name key space : Bytes) (ok : readStateKey encoded = .ok (name,key,space)) :
    ∃ first second third, component name = .ok first ∧ component key = .ok second ∧ component space = .ok third ∧
      first ++ second ++ third = encoded := by
  unfold readStateKey at ok
  obtain ⟨⟨name',rest⟩,named,ok⟩ := bind_ok ok
  obtain ⟨⟨key',rest'⟩,keyed,ok⟩ := bind_ok ok
  obtain ⟨⟨space',rest''⟩,spaced,ok⟩ := bind_ok ok
  dsimp only at ok keyed spaced
  split at ok
  next last =>
    cases ok
    obtain ⟨first,one,joined⟩ := readComponent_ok encoded name rest named
    obtain ⟨second,two,joined'⟩ := readComponent_ok rest key rest' keyed
    obtain ⟨third,three,joined''⟩ := readComponent_ok rest' space rest'' spaced
    refine ⟨first,second,third,one,two,three,?_⟩
    rw [last,append_nil] at joined''
    rw [append_assoc,joined'',joined',joined]
  next => cases ok

end components

section keys
variable {Key Value Value' : Type} (codec : KeyCodec Key)

section
variable (descriptor : StateDescriptor Value)
include descriptor

theorem stateKeyPrefix_ok (key : Key) (start : Bytes) :
    stateKeyPrefix codec descriptor key = .ok start ↔ ∃ encoded name' key', codec.encodeKey key = .ok encoded ∧
      component descriptor.name = .ok name' ∧ component encoded = .ok key' ∧ name' ++ key' = start := by
  constructor
  · intro ok
    obtain ⟨name',named,ok⟩ := bind_ok ok
    obtain ⟨encoded,keyed,ok⟩ := bind_ok ok
    obtain ⟨key',component,ok⟩ := bind_ok ok
    exact ⟨encoded,name',key',keyed,named,component,Except.ok.inj ok⟩
  · intro parts
    obtain ⟨encoded,name',key',keyed,named,component,joined⟩ := parts
    unfold stateKeyPrefix
    rw [ok_bind named,ok_bind keyed,ok_bind component,← joined]
    rfl

theorem encodeStateKey_ok (key space : Key) (whole : Bytes) :
    encodeStateKey codec descriptor key space = .ok whole ↔ ∃ start encoded space', stateKeyPrefix codec descriptor key = .ok start ∧
      codec.encodeKey space = .ok encoded ∧ component encoded = .ok space' ∧ start ++ space' = whole := by
  constructor
  · intro ok
    obtain ⟨name',named,ok⟩ := bind_ok ok
    obtain ⟨encoded,keyed,ok⟩ := bind_ok ok
    obtain ⟨key',component,ok⟩ := bind_ok ok
    obtain ⟨encoded',spaced,ok⟩ := bind_ok ok
    obtain ⟨space',component',ok⟩ := bind_ok ok
    exact ⟨_,encoded',space',(stateKeyPrefix_ok codec descriptor key _).mpr ⟨encoded,name',key',keyed,named,component,rfl⟩,spaced,component',
      Except.ok.inj ok⟩
  · intro parts
    obtain ⟨start,encoded',space',begun,spaced,component',joined⟩ := parts
    obtain ⟨encoded,name',key',keyed,named,component,rfl⟩ := (stateKeyPrefix_ok codec descriptor key start).mp begun
    unfold encodeStateKey
    rw [ok_bind named,ok_bind keyed,ok_bind component,ok_bind spaced,
      ok_bind component',← joined]
    rfl

theorem encodeStateKey_short (key space : Key) (encoded encoded' : Bytes)
    (keyed : codec.encodeKey key = .ok encoded) (spaced : codec.encodeKey space = .ok encoded')
    (name : descriptor.name.length < 2 ^ 32) (short : encoded.length < 2 ^ 32) (short' : encoded'.length < 2 ^ 32) :
    ∃ whole, encodeStateKey codec descriptor key space = .ok whole :=
  ⟨_,(encodeStateKey_ok codec descriptor key space _).mpr ⟨_,encoded',_,(stateKeyPrefix_ok codec descriptor key _).mpr
    ⟨encoded,_,_,keyed,(component_ok _ _).mpr ⟨name,rfl⟩,(component_ok _ _).mpr ⟨short,rfl⟩,rfl⟩,spaced,
    (component_ok _ _).mpr ⟨short',rfl⟩,rfl⟩⟩

theorem stateKeyPrefix_append_inj (descriptor' : StateDescriptor Value') (key key' : Key)
    (start start' rest rest' : Bytes) (one : stateKeyPrefix codec descriptor key = .ok start)
    (two : stateKeyPrefix codec descriptor' key' = .ok start') (same : start ++ rest = start' ++ rest') :
    descriptor.name = descriptor'.name ∧ codec.encodeKey key = codec.encodeKey key' ∧ rest = rest' := by
  obtain ⟨encoded,name,key',keyed,named,component,rfl⟩ := (stateKeyPrefix_ok codec descriptor key start).mp one
  obtain ⟨encoded',name',key'',keyed',named',component',rfl⟩ := (stateKeyPrefix_ok codec descriptor' _ start').mp two
  rw [append_assoc,append_assoc] at same
  obtain ⟨names,others⟩ := component_append_inj _ _ _ _ _ _ named named' same
  obtain ⟨keys,rests⟩ := component_append_inj _ _ _ _ _ _ component component' others
  exact ⟨names,by rw [keyed,keyed',keys],rests⟩

theorem stateKeyPrefix_isPrefix (descriptor' : StateDescriptor Value') (key key' space : Key)
    (start whole : Bytes) (one : stateKeyPrefix codec descriptor key = .ok start) (two : encodeStateKey codec descriptor' key' space = .ok whole) :
    start <+: whole ↔ descriptor.name = descriptor'.name ∧ codec.encodeKey key = codec.encodeKey key' := by
  obtain ⟨start',encoded,space',begun,-,-,rfl⟩ := (encodeStateKey_ok codec descriptor' key' space whole).mp two
  constructor
  · intro before
    obtain ⟨rest,same⟩ := before
    obtain ⟨names,keys,-⟩ := stateKeyPrefix_append_inj codec descriptor descriptor' key key' start start' rest space' one begun same
    exact ⟨names,keys⟩
  · intro parts
    have same : stateKeyPrefix codec descriptor key = stateKeyPrefix codec descriptor' key' := by
      unfold stateKeyPrefix
      rw [parts.1,parts.2]
    rw [one,begun] at same
    cases same
    exact prefix_append _ _

end

theorem encodeStateKey_inj (lawful : codec.Lawful) (descriptor : StateDescriptor Value) (descriptor' : StateDescriptor Value')
    (key key' space space' : Key) (whole : Bytes) (one : encodeStateKey codec descriptor key space = .ok whole)
    (two : encodeStateKey codec descriptor' key' space' = .ok whole) : descriptor.name = descriptor'.name ∧ key = key' ∧ space = space' := by
  have read := decodeStateKey_encode codec lawful descriptor key space whole one
  rw [decodeStateKey_encode codec lawful descriptor' key' space' whole two] at read
  simp only [Except.ok.injEq,Prod.mk.injEq] at read
  exact ⟨read.1.symm,read.2.1.symm,read.2.2.symm⟩

end keys

section scans
variable {Key Value : Type} (codec : KeyCodec Key) (descriptor : StateDescriptor Value)

theorem mem_scanned (keys : List Bytes) (key : Key) (start encoded : Bytes) (spaces : List Key)
    (begun : stateKeyPrefix codec descriptor key = .ok start) (keyed : codec.encodeKey key = .ok encoded)
    (scanned : (keys.filter (fun stateKey => start.isPrefixOf stateKey)).mapM (decodeStateNamespace codec) = .ok spaces) (space : Key) :
    space ∈ spaces ↔ ∃ stateKey ∈ keys, ∃ part, readStateKey stateKey = .ok (descriptor.name,encoded,part) ∧
      codec.decodeKey part = .ok space := by
  obtain ⟨encoded',name',key',keyed',named,component,joined⟩ := (stateKeyPrefix_ok codec descriptor key start).mp begun
  obtain rfl := Except.ok.inj (keyed.symm.trans keyed')
  obtain ⟨spaces',same,members⟩ := mapM_ok _ _ (of_mapM_ok _ _ spaces scanned)
  obtain rfl := Except.ok.inj (scanned.symm.trans same)
  rw [members]
  constructor
  · intro found
    obtain ⟨stateKey,inside,decoded⟩ := found
    obtain ⟨listed,before⟩ := mem_filter.mp inside
    obtain ⟨rest,shape⟩ := isPrefixOf_iff_prefix.mp before
    obtain ⟨⟨name,other,part⟩,read,decoded⟩ := bind_ok decoded
    obtain ⟨first,second,third,one,two,three,parts⟩ := readStateKey_ok stateKey name other part read
    rw [← shape,← joined,append_assoc,append_assoc] at parts
    obtain ⟨names,others⟩ := component_append_inj _ _ _ _ _ _ one named parts
    obtain ⟨same,-⟩ := component_append_inj _ _ _ _ _ _ two component others
    rw [names,same] at read
    exact ⟨stateKey,listed,part,read,decoded⟩
  · intro found
    obtain ⟨stateKey,listed,part,read,decoded⟩ := found
    obtain ⟨first,second,third,one,two,three,parts⟩ := readStateKey_ok stateKey _ _ part read
    obtain rfl := Except.ok.inj (named.symm.trans one)
    obtain rfl := Except.ok.inj (component.symm.trans two)
    refine ⟨stateKey,mem_filter.mpr ⟨listed, isPrefixOf_iff_prefix.mpr ⟨third,?_⟩⟩,?_⟩
    · rw [← joined,parts]
    · unfold decodeStateNamespace
      rw [ok_bind read]
      exact decoded

/-- What `namespaces` returns for the current key of a backend with the given state keys. -/
def ReadsNamespaces (currentKey : Option Key) (stateKeys : List Bytes) (spaces : List Key) : Prop :=
  ∃ key encoded, currentKey = some key ∧ codec.encodeKey key = .ok encoded ∧
    ∀ space, space ∈ spaces ↔ ∃ stateKey ∈ stateKeys, ∃ part, readStateKey stateKey = .ok (descriptor.name,encoded,part) ∧
      codec.decodeKey part = .ok space

theorem MemoryStateBackend.namespaces_ok (b : MemoryStateBackend Key) (spaces : List Key)
    (ok : b.namespaces codec descriptor = .ok spaces) : ReadsNamespaces codec descriptor b.currentKey b.state.sorted.keys spaces := by
  obtain ⟨key,current,ok⟩ := bind_ok ok
  obtain ⟨start,begun,scanned⟩ := bind_ok ok
  obtain ⟨encoded,-,-,keyed,-⟩ := (stateKeyPrefix_ok codec descriptor key start).mp begun
  refine ⟨key,encoded,?_,keyed,mem_scanned codec descriptor _ key start encoded spaces begun keyed scanned⟩
  unfold requireCurrentKey at current
  cases found : b.currentKey with
  | none =>
    rw [found] at current
    cases current
  | some key' =>
    rw [found] at current
    exact congrArg some (Except.ok.inj current)

theorem RocksDBStateBackend.namespaces_ok (b : RocksDBStateBackend Key) (spaces : List Key)
    (ok : b.namespaces codec descriptor = .ok spaces) : ReadsNamespaces codec descriptor b.currentKey b.state.keys spaces := by
  obtain ⟨key,current,ok⟩ := bind_ok ok
  obtain ⟨start,begun,scanned⟩ := bind_ok ok
  obtain ⟨encoded,-,-,keyed,-⟩ := (stateKeyPrefix_ok codec descriptor key start).mp begun
  rw [takeWhile_map,Function.comp_def,scan_between] at scanned
  have filtered : (b.state.entries.filter (fun item => start.isPrefixOf item.1)).map Prod.fst =
      b.state.keys.filter (fun stateKey => start.isPrefixOf stateKey) := by
    unfold OrderedMap.keys
    rw [List.filter_map]
    rfl
  rw [filtered] at scanned
  refine ⟨key,encoded,?_,keyed,mem_scanned codec descriptor _ key start encoded spaces begun keyed scanned⟩
  unfold requireCurrentKey at current
  cases found : b.currentKey with
  | none =>
    rw [found] at current
    cases current
  | some key' =>
    rw [found] at current
    exact congrArg some (Except.ok.inj current)

end scans

section order

theorem stamped_order (small large : Nat) (fits : small < 256 ^ 8) (fits' : large < 256 ^ 8) (first tail tail' : Bytes) :
    (small < large → first ++ (Bytes.ofNat 8 small ++ tail) < first ++ (Bytes.ofNat 8 large ++ tail')) ∧
      (first ++ (Bytes.ofNat 8 small ++ tail) ≤ first ++ (Bytes.ofNat 8 large ++ tail') → small ≤ large) := by
  induction first with
  | nil => exact ⟨fun less => Bytes.ofNat_append_lt 8 small large less fits' tail tail',Bytes.ofNat_le_of_le 8 small large fits tail tail'⟩
  | cons digit rest ih =>
    rw [cons_append,cons_append,cons_lt_cons_iff,Bytes.cons_le_cons_iff]
    refine ⟨fun less => .inr ⟨rfl,ih.1 less⟩,fun ordered => ?_⟩
    rcases ordered with less | same
    · exact absurd less (lt_irrefl _)
    · exact ih.2 same.2

theorem fits_unsigned (stamp : Nat) : (stamp : Int) < 256 ^ 8 ↔ stamp < 256 ^ 8 := by
  have whole : (256 : Int) ^ 8 = ((256 ^ 8 : Nat) : Int) := by
    rw [Int.natCast_pow]
    rfl
  rw [whole,Int.ofNat_lt]

theorem encodeExpiryKey_ok (expiresAt : Int) (stateKey encoded : Bytes) :
    encodeExpiryKey expiresAt stateKey = .ok encoded ↔ ∃ stamp : Nat, (stamp : Int) = expiresAt ∧ stamp < 256 ^ 8 ∧
      encoded = Bytes.ofNat 8 stamp ++ stateKey := by
  unfold encodeExpiryKey packUnsigned
  split
  next fits =>
    constructor
    · intro ok
      cases ok
      exact ⟨expiresAt.toNat,by omega,by omega,rfl⟩
    · intro parts
      obtain ⟨stamp,rfl,-,rfl⟩ := parts
      rfl
  next outside =>
    constructor
    · intro ok
      cases ok
    · intro parts
      obtain ⟨stamp,rfl,small,-⟩ := parts
      exact absurd ⟨Int.natCast_nonneg stamp,(fits_unsigned stamp).mpr small⟩ outside

end order

section unambiguous
variable {Key Value Value' : Type} (codec : KeyCodec Key)

/-- State keys, their prefixes, and the keys of expiries and timers. -/
theorem physical_keys_unambiguous (descriptor : StateDescriptor Value) (descriptor' : StateDescriptor Value') :
    (codec.Lawful → (∀ key space encoded encoded', codec.encodeKey key = .ok encoded → codec.encodeKey space = .ok encoded' →
        descriptor.name.length < 2 ^ 32 → encoded.length < 2 ^ 32 → encoded'.length < 2 ^ 32 →
        ∃ whole, encodeStateKey codec descriptor key space = .ok whole ∧ decodeStateKey codec whole = .ok (descriptor.name,key,space)) ∧
      ∀ key key' space space' whole, encodeStateKey codec descriptor key space = .ok whole →
        encodeStateKey codec descriptor' key' space' = .ok whole → descriptor.name = descriptor'.name ∧ key = key' ∧ space = space') ∧
    (∀ key key' space start whole, stateKeyPrefix codec descriptor key = .ok start → encodeStateKey codec descriptor' key' space = .ok whole →
      (start <+: whole ↔ descriptor.name = descriptor'.name ∧ codec.encodeKey key = codec.encodeKey key')) ∧
    (∀ (b : MemoryStateBackend Key) spaces, b.namespaces codec descriptor = .ok spaces →
      ReadsNamespaces codec descriptor b.currentKey b.state.sorted.keys spaces) ∧
    (∀ (b : RocksDBStateBackend Key) spaces, b.namespaces codec descriptor = .ok spaces →
      ReadsNamespaces codec descriptor b.currentKey b.state.keys spaces) ∧
    (∀ whole decoded, decodeStateKey codec whole = .ok decoded → ∃ name key space first second third,
      readStateKey whole = .ok (name,key,space) ∧ component name = .ok first ∧ component key = .ok second ∧ component space = .ok third ∧
      first ++ second ++ third = whole) ∧
    (∀ (expiresAt expiresAt' : Nat) stateKey stateKey', expiresAt < 2 ^ 64 → expiresAt' < 2 ^ 64 → ∃ whole whole',
      encodeExpiryKey expiresAt stateKey = .ok whole ∧ encodeExpiryKey expiresAt' stateKey' = .ok whole' ∧
      (expiresAt < expiresAt' → whole < whole') ∧ (whole ≤ whole' → expiresAt ≤ expiresAt')) ∧
    ∀ (timestamp timestamp' : Nat) key key' space space' domain payload payload', timestamp < 2 ^ 64 → timestamp' < 2 ^ 64 →
      codec.encodePair key space = .ok payload → codec.encodePair key' space' = .ok payload' → ∃ whole whole',
      encodeTimerKey codec timestamp key space domain = .ok whole ∧ encodeTimerKey codec timestamp' key' space' domain = .ok whole' ∧
      (timestamp < timestamp' → whole < whole') ∧ (whole ≤ whole' → timestamp ≤ timestamp') := by
  have stamped (timestamp : Nat) (small : timestamp < 2 ^ 64) (key space : Key) (domain : TimerDomain) (payload : Bytes)
      (paired : codec.encodePair key space = .ok payload) : encodeTimerKey codec timestamp key space domain =
        .ok (timerPrefix domain ++ (Bytes.ofNat 8 timestamp ++ codec.sha256 payload)) := by
    have fits : (timestamp : Int) < 256 ^ 8 := (fits_unsigned timestamp).mpr (by omega)
    have packed : packUnsigned 8 (timestamp : Int) = .ok (Bytes.ofNat 8 timestamp) := if_pos ⟨Int.natCast_nonneg timestamp,fits⟩
    unfold encodeTimerKey
    rw [ok_bind paired,ok_bind packed,← append_assoc]
    rfl
  refine ⟨fun lawful => ⟨fun key space encoded encoded' keyed spaced name short short' => ?_,
      fun key key' space space' whole one two => encodeStateKey_inj codec lawful descriptor descriptor' key key' space space' whole one two⟩,
    fun key key' space start whole one two => stateKeyPrefix_isPrefix codec descriptor descriptor' key key' space start whole one two,
    fun b spaces ok => b.namespaces_ok codec descriptor spaces ok,fun b spaces ok => b.namespaces_ok codec descriptor spaces ok,
    fun whole decoded ok => ?_,fun expiresAt expiresAt' stateKey stateKey' small small' => ?_,
    fun timestamp timestamp' key key' space space' domain payload payload' small small' paired paired' => ?_⟩
  · obtain ⟨whole,ok⟩ := encodeStateKey_short codec descriptor key space encoded encoded' keyed spaced name short short'
    exact ⟨whole,ok,decodeStateKey_encode codec lawful descriptor key space whole ok⟩
  · obtain ⟨⟨name,key,space⟩,read,-⟩ := bind_ok ok
    obtain ⟨first,second,third,parts⟩ := readStateKey_ok whole name key space read
    exact ⟨name,key,space,first,second,third,read,parts⟩
  · have order := stamped_order expiresAt expiresAt' (by omega) (by omega) [] stateKey stateKey'
    exact ⟨_,_,(encodeExpiryKey_ok _ _ _).mpr ⟨expiresAt,rfl,by omega,rfl⟩,(encodeExpiryKey_ok _ _ _).mpr ⟨expiresAt',rfl,by omega,rfl⟩,
      order.1,order.2⟩
  · have order := stamped_order timestamp timestamp' (by omega) (by omega) (timerPrefix domain) (codec.sha256 payload) (codec.sha256 payload')
    exact ⟨_,_,stamped timestamp small key space domain payload paired,stamped timestamp' small' key' space' domain payload' paired',
      order.1,order.2⟩

/-- Small integers as keys, pickled as they are: one is read back, and a scan for it passes over another. -/
theorem small_keys_unambiguous : (∃ whole, encodeStateKey smallKeys session (some 1) none = .ok whole ∧
      decodeStateKey smallKeys whole = .ok (session.name,some 1,none)) ∧
    ∃ start other, stateKeyPrefix smallKeys session (some 1) = .ok start ∧
      encodeStateKey smallKeys session (some 2) none = .ok other ∧ ¬ start <+: other := by
  obtain ⟨reads,scans,-⟩ := physical_keys_unambiguous smallKeys session session
  have one : stateKeyPrefix smallKeys session (some 1) = .ok [0,0,0,1,115,0,0,0,5,128,5,75,1,46] := by decide +kernel
  have two : encodeStateKey smallKeys session (some 2) none =
      .ok [0,0,0,1,115,0,0,0,5,128,5,75,2,46,0,0,0,4,128,5,78,46] := by decide +kernel
  refine ⟨(reads smallKeys_lawful).1 (some 1) none _ _ rfl rfl (by decide) (by decide) (by decide),_,_,one,two,fun begins => ?_⟩
  exact absurd ((scans (some 1) (some 2) none _ _ one two).mp begins).2 (by decide +kernel)

end unambiguous
end Klein.State
