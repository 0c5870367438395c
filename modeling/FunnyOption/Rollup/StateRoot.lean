import FunnyOption.Rollup.Entries
import FunnyOption.Rollup.WithdrawalTree

/-!
# State roots

The shadow state is committed to by one hash. Each of its six maps has a root: the hash of the hashes of its
leaves in the order of their keys, or a constant for the empty map. The state root is a hash of these roots.

Two states with one root are the same state, as long as no two of the messages that are hashed for them collide.
The argument goes from the outside to the inside. A hash gives back its message, the length prefixes of a message
give back its parts, and a part that is a hash gives back the message below it. At a map there are two ways to
get a root. The constant for the empty map is told apart by a word that is no hash, or by another tag.

## Maps

A map has its rows in the order of their keys, so equal maps are the same value. That keys and encoded leaves are
Go strings, whose length fits into an `int`, is a field. `json.Marshal` is the parameter `LeafCodec`.

## Main result

* `state_root_binds`: states with the same root are equal.
-/

open Foundation

namespace FunnyOption.Rollup

/-! ## Messages -/

/-- What `hashStrings` hashes: every part with its length in front. -/
def hashMessage (parts : List String) : Bytes :=
  parts.flatMap fun part ↦ uintBytes 8 (stringBytes part).length ++ stringBytes part

/-- `hashStrings`. -/
def hashText (sha256 : Bytes → Bytes32) (parts : List String) : String := encodeHex (hashStrings sha256 parts).1

/-- The length of the text fits into an `int`. -/
def GoSized (text : String) : Prop := (stringBytes text).length < 2 ^ 63

instance : DecidablePred GoSized := fun text ↦ inferInstanceAs (Decidable ((stringBytes text).length < 2 ^ 63))

theorem stringBytes_injective : Function.Injective stringBytes := by
  intro s t h
  have hbytes : s.toList.utf8Encode = t.toList.utf8Encode := congrArg List.toByteArray h
  have hchars : some s.toList.toArray = some t.toList.toArray := by
    rw [← List.utf8Decode?_utf8Encode, ← List.utf8Decode?_utf8Encode, hbytes]
  exact String.toList_inj.mp (List.toArray_inj (Option.some.inj hchars))

theorem uintBytes_succ (width n : ℕ) :
    uintBytes (width + 1) n = UInt8.ofNat (n / 256 ^ width) :: uintBytes width n := by
  rw [uintBytes, List.range_succ_eq_map, List.map_cons, List.map_map, uintBytes]
  refine congrArg₂ List.cons (by simp) (List.map_congr_left fun i _ ↦ ?_)
  have hexp : width + 1 - 1 - (i + 1) = width - 1 - i := by omega
  simp only [Function.comp_apply, Nat.succ_eq_add_one, hexp]

/-- The bytes determine the number, up to what does not fit. -/
theorem mod_eq_of_uintBytes_eq {width m n : ℕ} (h : uintBytes width m = uintBytes width n) :
    m % 256 ^ width = n % 256 ^ width := by
  induction width with
  | zero => rw [pow_zero, Nat.mod_one, Nat.mod_one]
  | succ width ih =>
    rw [uintBytes_succ, uintBytes_succ] at h
    obtain ⟨hhead, htail⟩ := List.cons.inj h
    have hdigit : m / 256 ^ width % 256 = n / 256 ^ width % 256 := by
      have htoNat := congrArg UInt8.toNat hhead
      rwa [UInt8.toNat_ofNat', UInt8.toNat_ofNat'] at htoNat
    rw [pow_succ, Nat.mod_mul, Nat.mod_mul, ih htail, hdigit]

theorem length_eq_of_uintBytes_eq {s t : String} (hs : GoSized s) (ht : GoSized t)
    (h : uintBytes 8 (stringBytes s).length = uintBytes 8 (stringBytes t).length) :
    (stringBytes s).length = (stringBytes t).length := by
  have hmod := mod_eq_of_uintBytes_eq h
  rw [GoSized] at hs ht
  have hbound : (2 : ℕ) ^ 63 < 256 ^ 8 := by norm_num
  rwa [Nat.mod_eq_of_lt (hs.trans hbound), Nat.mod_eq_of_lt (ht.trans hbound)] at hmod

/-- **Length prefixes give back the parts.** -/
theorem hashMessage_inj {parts parts' : List String} (hsized : ∀ part ∈ parts, GoSized part)
    (hsized' : ∀ part ∈ parts', GoSized part) (h : hashMessage parts = hashMessage parts') : parts = parts' := by
  have hpos : ∀ (part : String) (rest : List String), hashMessage (part :: rest) ≠ [] := by
    intro part rest hnil
    have hlength := congrArg List.length hnil
    simp [hashMessage] at hlength
  induction parts generalizing parts' with
  | nil =>
    cases parts' with
    | nil => rfl
    | cons part' rest' => exact absurd h.symm (hpos part' rest')
  | cons part rest ih =>
    cases parts' with
    | nil => exact absurd h (hpos part rest)
    | cons part' rest' =>
      simp only [hashMessage, List.flatMap_cons, List.append_assoc] at h
      obtain ⟨hfront, hrest⟩ := List.append_inj h (by simp)
      have hlength := length_eq_of_uintBytes_eq (hsized part List.mem_cons_self)
        (hsized' part' List.mem_cons_self) hfront
      obtain ⟨hpart, htail⟩ := List.append_inj hrest hlength
      rw [stringBytes_injective hpart, ih (fun p hp ↦ hsized p (List.mem_cons_of_mem _ hp))
        (fun p hp ↦ hsized' p (List.mem_cons_of_mem _ hp)) htail]

theorem length_stringBytes_le (s : String) : (stringBytes s).length ≤ 4 * s.toList.length := by
  rw [stringBytes]
  induction s.toList with
  | nil => exact Nat.zero_le _
  | cons c l ih =>
    rw [List.flatMap_cons, List.length_append, List.length_cons, String.length_utf8EncodeChar]
    have hsize := c.utf8Size_le_four
    omega

theorem length_encodeHex (b : Bytes) : (encodeHex b).toList.length = 2 * b.length := by
  rw [encodeHex, String.toList_ofList]
  induction b with
  | nil => rfl
  | cons x b ih => simp only [List.flatMap_cons, List.length_append, List.length_cons, List.length_nil, ih]; omega

theorem goSized_encodeHex (b : Bytes32) : GoSized (encodeHex b.1) := by
  have hlength := length_stringBytes_le (encodeHex b.1)
  rw [length_encodeHex, b.2] at hlength
  rw [GoSized]
  omega

section Hash

variable (sha256 : Bytes → Bytes32)

theorem goSized_hashText (parts : List String) : GoSized (hashText sha256 parts) := goSized_encodeHex _

/-- A root is a trimmed text that is not empty. -/
theorem trimSpace_hashText (parts : List String) : trimSpace (hashText sha256 parts) = hashText sha256 parts := by
  refine trimSpace_eq_self fun c hc ↦ ?_
  rw [hashText, encodeHex, String.toList_ofList] at hc
  obtain ⟨x, -, hx⟩ := List.mem_flatMap.mp hc
  have hlt := x.toNat_lt
  rcases List.mem_pair.mp hx with rfl | rfl
  · exact isSpace_hexDigit _ (by omega)
  · exact isSpace_hexDigit _ (by omega)

theorem hashText_ne_empty (parts : List String) : hashText sha256 parts ≠ "" := by
  refine encodeHex_ne_empty fun hempty ↦ ?_
  have hlength := (hashStrings sha256 parts).2
  rw [hempty] at hlength
  cases hlength

variable {sha256} {used : Set Bytes}

/-- **A hash gives back its parts**, among messages that do not collide. -/
theorem hashText_inj (hfree : Set.InjOn sha256 used) {parts parts' : List String} (hused : hashMessage parts ∈ used)
    (hused' : hashMessage parts' ∈ used) (hsized : ∀ part ∈ parts, GoSized part)
    (hsized' : ∀ part ∈ parts', GoSized part) (h : hashText sha256 parts = hashText sha256 parts') :
    parts = parts' :=
  hashMessage_inj hsized hsized' (hfree hused hused' (Subtype.ext (encodeHex_injective h)))

end Hash

/-! ## Maps of leaves -/

/-- A `map[string]T`, with its rows in the order of the keys. -/
@[ext]
structure LeafMap {T : Type*} (encode : T → String) where
  rows : List (String × T)
  sorted : rows.Pairwise fun a b ↦ a.1 < b.1
  sized : ∀ row ∈ rows, GoSized row.1 ∧ GoSized (encode row.2)

section Map

variable {T : Type*} {encode : T → String}

/-- The map without rows. -/
def LeafMap.empty (encode : T → String) : LeafMap encode := ⟨[], .nil, by simp⟩

variable (sha256 : Bytes → Bytes32)

/-- The hashes of the leaves in the order of their keys, each by `hashStruct`. -/
def leafHashes (tag : String) (leaves : LeafMap encode) : List String :=
  leaves.rows.map fun row ↦ hashText sha256 [tag, row.1, encode row.2]

/-- What `leafRoot` and `nonceLeafRoot` have in common. They differ in the words in front of the hashes. -/
def mapRoot (front : List String) (tag : String) (leaves : LeafMap encode) (zero : String) : String :=
  if leaves.rows = [] then zero else hashText sha256 (front ++ leafHashes sha256 tag leaves)

/-- `leafRoot`. -/
def leafRoot (tag : String) (leaves : LeafMap encode) (zero : String) : String :=
  mapRoot sha256 ["shadow", tag] tag leaves zero

/-- The messages that are hashed for the root of a map. -/
def mapMessages (front : List String) (tag : String) (leaves : LeafMap encode) (zero : List String) : List Bytes :=
  hashMessage zero :: if leaves.rows = [] then [] else
    hashMessage (front ++ leafHashes sha256 tag leaves) ::
      leaves.rows.map fun row ↦ hashMessage [tag, row.1, encode row.2]

/-- No list of hashes behind the words in front gives the parts of the constant. -/
def Apart (front zero : List String) : Prop :=
  ∀ hashes : List Bytes32, hashes ≠ [] → zero ≠ front ++ hashes.map fun hash ↦ encodeHex hash.1

/-- The constant has a word where a hash would be. -/
theorem apart_of_word (front : List String) (word : String) (rest : List String) (hword : word.toList.length ≠ 64) :
    Apart front (front ++ word :: rest) := by
  intro hashes hne heq
  cases hashes with
  | nil => exact hne rfl
  | cons hash hashes =>
    have hsame := (List.cons.inj (List.append_cancel_left heq)).1
    refine hword ?_
    rw [hsame, length_encodeHex, hash.2]

/-- The constant has another tag. -/
theorem apart_of_tag (first tag tag' : String) (front rest : List String) (hne : tag' ≠ tag) :
    Apart (first :: tag :: front) (first :: tag' :: rest) := by
  intro hashes _ heq
  exact hne (List.cons.inj (List.cons.inj heq).2).1

/-- The words of a map are short, and tell the empty map apart. -/
structure Separated (front : List String) (tag : String) (zero : List String) : Prop where
  frontSized : ∀ part ∈ front, GoSized part
  tagSized : GoSized tag
  zeroSized : ∀ part ∈ zero, GoSized part
  apart : Apart front zero

variable {sha256} {used : Set Bytes}

theorem exists_leafHashes (tag : String) (leaves : LeafMap encode) : leafHashes sha256 tag leaves =
      (leaves.rows.map fun row ↦ hashStrings sha256 [tag, row.1, encode row.2]).map
        fun hash ↦ encodeHex hash.1 := by
  rw [leafHashes, List.map_map]
  rfl

theorem mem_mapMessages_root (front : List String) (tag : String) {leaves : LeafMap encode} (zero : List String)
    (hne : leaves.rows ≠ []) :
    hashMessage (front ++ leafHashes sha256 tag leaves) ∈ mapMessages sha256 front tag leaves zero := by
  rw [mapMessages, if_neg hne]
  exact List.mem_cons_of_mem _ List.mem_cons_self

theorem mem_mapMessages_row (front : List String) (tag : String) {leaves : LeafMap encode} (zero : List String)
    {row : String × T} (hrow : row ∈ leaves.rows) :
    hashMessage [tag, row.1, encode row.2] ∈ mapMessages sha256 front tag leaves zero := by
  rw [mapMessages, if_neg (List.ne_nil_of_mem hrow)]
  exact List.mem_cons_of_mem _ (List.mem_cons_of_mem _ (List.mem_map_of_mem hrow))

theorem goSized_front {front : List String} (hfront : ∀ part ∈ front, GoSized part) (tag : String)
    (leaves : LeafMap encode) : ∀ part ∈ front ++ leafHashes sha256 tag leaves, GoSized part := by
  intro part hpart
  rcases List.mem_append.mp hpart with hpart | hpart
  · exact hfront part hpart
  · obtain ⟨row, -, rfl⟩ := List.mem_map.mp hpart
    exact goSized_hashText sha256 _

/-- The hashes of leaves give back the rows. -/
theorem rows_eq_of_leafHashes (hfree : Set.InjOn sha256 used) (hencode : Function.Injective encode) {tag : String}
    (htag : GoSized tag) {rows rows' : List (String × T)}
    (hsized : ∀ row ∈ rows, GoSized row.1 ∧ GoSized (encode row.2))
    (hsized' : ∀ row ∈ rows', GoSized row.1 ∧ GoSized (encode row.2))
    (hused : ∀ row ∈ rows, hashMessage [tag, row.1, encode row.2] ∈ used)
    (hused' : ∀ row ∈ rows', hashMessage [tag, row.1, encode row.2] ∈ used)
    (h : rows.map (fun row ↦ hashText sha256 [tag, row.1, encode row.2]) =
      rows'.map fun row ↦ hashText sha256 [tag, row.1, encode row.2]) : rows = rows' := by
  induction rows generalizing rows' with
  | nil => exact (List.map_eq_nil_iff.mp h.symm).symm
  | cons row rows ih =>
    cases rows' with
    | nil => cases h
    | cons row' rows' =>
      obtain ⟨hhead, htail⟩ := List.cons.inj h
      have hparts := hashText_inj hfree (hused row List.mem_cons_self) (hused' row' List.mem_cons_self)
        (by simp [htag, hsized row List.mem_cons_self]) (by simp [htag, hsized' row' List.mem_cons_self]) hhead
      have hkey : row.1 = row'.1 := (List.cons.inj (List.cons.inj hparts).2).1
      have hleaf : encode row.2 = encode row'.2 := (List.cons.inj (List.cons.inj (List.cons.inj hparts).2).2).1
      rw [Prod.ext hkey (hencode hleaf), ih (fun r hr ↦ hsized r (List.mem_cons_of_mem _ hr))
        (fun r hr ↦ hsized' r (List.mem_cons_of_mem _ hr)) (fun r hr ↦ hused r (List.mem_cons_of_mem _ hr))
        (fun r hr ↦ hused' r (List.mem_cons_of_mem _ hr)) htail]

/-- **The root of a map binds the map.** -/
theorem mapRoot_inj (hfree : Set.InjOn sha256 used) (hencode : Function.Injective encode) {front zero : List String}
    {tag : String} (hwords : Separated front tag zero) {leaves leaves' : LeafMap encode}
    (hused : ∀ message ∈ mapMessages sha256 front tag leaves zero, message ∈ used)
    (hused' : ∀ message ∈ mapMessages sha256 front tag leaves' zero, message ∈ used)
    (h : mapRoot sha256 front tag leaves (hashText sha256 zero) =
      mapRoot sha256 front tag leaves' (hashText sha256 zero)) : leaves = leaves' := by
  -- an empty map has another root than one with rows
  have hempty : ∀ {l : LeafMap encode}, l.rows ≠ [] →
      (∀ message ∈ mapMessages sha256 front tag l zero, message ∈ used) →
        hashText sha256 zero ≠ hashText sha256 (front ++ leafHashes sha256 tag l) := by
    intro l hne hl heq
    have hparts := hashText_inj hfree (hl _ List.mem_cons_self) (hl _ (mem_mapMessages_root front tag zero hne))
      hwords.zeroSized (goSized_front hwords.frontSized tag l) heq
    rw [exists_leafHashes] at hparts
    exact hwords.apart _ (by simpa using hne) hparts
  rw [mapRoot, mapRoot] at h
  refine LeafMap.ext ?_
  split_ifs at h with hnil hnil' hnil'
  · rw [hnil, hnil']
  · exact absurd h (hempty hnil' hused')
  · exact absurd h.symm (hempty hnil hused)
  · have hparts := hashText_inj hfree (hused _ (mem_mapMessages_root front tag zero hnil))
      (hused' _ (mem_mapMessages_root front tag zero hnil')) (goSized_front hwords.frontSized tag leaves)
      (goSized_front hwords.frontSized tag leaves') h
    exact rows_eq_of_leafHashes hfree hencode hwords.tagSized leaves.sized leaves'.sized
      (fun row hrow ↦ hused _ (mem_mapMessages_row front tag zero hrow))
      (fun row hrow ↦ hused' _ (mem_mapMessages_row front tag zero hrow)) (List.append_cancel_left hparts)

end Map

/-! ## The state -/

/-- `json.Marshal` of the leaves. -/
structure LeafCodec where
  balance : BalanceLeaf → String
  nonce : NonceLeaf → String
  order : OrderLeaf → String
  position : PositionLeaf → String
  marketFunding : MarketFundingLeaf → String
  withdrawal : WithdrawalLeaf → String

/-- Different leaves have different encodings. -/
structure LeafCodec.Faithful (codec : LeafCodec) : Prop where
  balance : Function.Injective codec.balance
  nonce : Function.Injective codec.nonce
  order : Function.Injective codec.order
  position : Function.Injective codec.position
  marketFunding : Function.Injective codec.marketFunding
  withdrawal : Function.Injective codec.withdrawal

/-- `shadowState`, with the maps under the texts of their keys. -/
@[ext]
structure ShadowMaps (codec : LeafCodec) where
  balances : LeafMap codec.balance
  nonces : LeafMap codec.nonce
  openOrders : LeafMap codec.order
  positions : LeafMap codec.position
  marketFunding : LeafMap codec.marketFunding
  withdrawals : LeafMap codec.withdrawal

/-- The state before any entry. -/
def ShadowMaps.empty (codec : LeafCodec) : ShadowMaps codec :=
  ⟨.empty _, .empty _, .empty _, .empty _, .empty _, .empty _⟩

/-- `RootSet`. -/
structure RootSet where
  balancesRoot : String
  ordersRoot : String
  positionsFundingRoot : String
  withdrawalsRoot : String
  stateRoot : String
  deriving DecidableEq, Repr

/-! ### Constants

The parts of the roots that stand for empty maps, as `ZeroBalancesRoot` and the others hash them. -/

def zeroBalances : List String := ["shadow", "balances", "empty"]

def zeroNonce : List String := ["shadow", "orders", "nonce", "empty"]

def zeroOpenOrders : List String := ["shadow", "orders", "open", "empty"]

def zeroPositions : List String := ["shadow", "positions", "leafs", "empty"]

def zeroMarketFunding : List String := ["shadow", "positions", "funding", "empty"]

def zeroInsurance : List String := ["shadow", "positions", "insurance", "empty"]

def zeroWithdrawals : List String := ["shadow", "withdrawals", "empty"]

section Roots

variable (sha256 : Bytes → Bytes32)

/-- `nonceLeafRoot`. -/
def nonceLeafRoot {encode : NonceLeaf → String} (leaves : LeafMap encode) : String :=
  mapRoot sha256 ["shadow", "orders", "nonce"] "orders_nonce" leaves (hashText sha256 zeroNonce)

/-- `ZeroStateRoot`. -/
def zeroStateRoot : String := hashText sha256 ["shadow", "state", "v1", hashText sha256 zeroBalances,
    hashText sha256 ["shadow", "orders", hashText sha256 zeroNonce, hashText sha256 zeroOpenOrders],
    hashText sha256 ["shadow", "positions_funding", hashText sha256 zeroPositions,
      hashText sha256 zeroMarketFunding, hashText sha256 zeroInsurance],
    hashText sha256 zeroWithdrawals]

namespace ShadowMaps

variable {codec : LeafCodec} (s : ShadowMaps codec)

def balancesRoot : String := leafRoot sha256 "balances" s.balances (hashText sha256 zeroBalances)

/-- The parts of `OrdersRoot`. -/
def ordersParts : List String := ["shadow", "orders", nonceLeafRoot sha256 s.nonces,
    leafRoot sha256 "open_orders" s.openOrders (hashText sha256 zeroOpenOrders)]

/-- The parts of `PositionsFundingRoot`. -/
def positionsFundingParts : List String :=
  ["shadow", "positions_funding", leafRoot sha256 "positions" s.positions (hashText sha256 zeroPositions),
    leafRoot sha256 "market_funding" s.marketFunding (hashText sha256 zeroMarketFunding),
    hashText sha256 zeroInsurance]

def withdrawalsRoot : String := leafRoot sha256 "withdrawals" s.withdrawals (hashText sha256 zeroWithdrawals)

/-- The parts of `StateRoot`. -/
def stateParts : List String :=
  ["shadow", "state", "v1", s.balancesRoot sha256, hashText sha256 (s.ordersParts sha256),
    hashText sha256 (s.positionsFundingParts sha256), s.withdrawalsRoot sha256]

/-- `roots`. -/
def roots : RootSet where
  balancesRoot := s.balancesRoot sha256
  ordersRoot := hashText sha256 (s.ordersParts sha256)
  positionsFundingRoot := hashText sha256 (s.positionsFundingParts sha256)
  withdrawalsRoot := s.withdrawalsRoot sha256
  stateRoot := hashText sha256 (s.stateParts sha256)

/-- The messages that are hashed for the roots of a state. -/
def messages : List Bytes := [hashMessage (s.stateParts sha256), hashMessage (s.ordersParts sha256),
    hashMessage (s.positionsFundingParts sha256), hashMessage zeroInsurance] ++
  mapMessages sha256 ["shadow", "balances"] "balances" s.balances zeroBalances ++
  mapMessages sha256 ["shadow", "orders", "nonce"] "orders_nonce" s.nonces zeroNonce ++
  mapMessages sha256 ["shadow", "open_orders"] "open_orders" s.openOrders zeroOpenOrders ++
  mapMessages sha256 ["shadow", "positions"] "positions" s.positions zeroPositions ++
  mapMessages sha256 ["shadow", "market_funding"] "market_funding" s.marketFunding zeroMarketFunding ++
  mapMessages sha256 ["shadow", "withdrawals"] "withdrawals" s.withdrawals zeroWithdrawals

end ShadowMaps

end Roots

/-- The root of the state before any entry is the constant. -/
theorem stateRoot_empty (sha256 : Bytes → Bytes32) (codec : LeafCodec) :
    ((ShadowMaps.empty codec).roots sha256).stateRoot = zeroStateRoot sha256 := rfl

/-! ## The state root binds the state -/

section Binding

variable {sha256 : Bytes → Bytes32} {codec : LeafCodec} {used : Set Bytes} {s s' : ShadowMaps codec}

theorem goSized_mapRoot {T : Type*} {encode : T → String} (front : List String) (tag : String)
    (leaves : LeafMap encode) (zero : List String) :
    GoSized (mapRoot sha256 front tag leaves (hashText sha256 zero)) := by
  rw [mapRoot]
  split_ifs
  · exact goSized_hashText sha256 zero
  · exact goSized_hashText sha256 _

theorem separated_balances : Separated ["shadow", "balances"] "balances" zeroBalances :=
  ⟨by decide, by decide, by decide, apart_of_word _ "empty" [] (by decide)⟩

theorem separated_nonces : Separated ["shadow", "orders", "nonce"] "orders_nonce" zeroNonce :=
  ⟨by decide, by decide, by decide, apart_of_word _ "empty" [] (by decide)⟩

theorem separated_openOrders : Separated ["shadow", "open_orders"] "open_orders" zeroOpenOrders :=
  ⟨by decide, by decide, by decide,
    apart_of_tag "shadow" "open_orders" "orders" [] _ (by decide)⟩

theorem separated_positions : Separated ["shadow", "positions"] "positions" zeroPositions :=
  ⟨by decide, by decide, by decide, apart_of_word _ "leafs" ["empty"] (by decide)⟩

theorem separated_marketFunding : Separated ["shadow", "market_funding"] "market_funding" zeroMarketFunding :=
  ⟨by decide, by decide, by decide,
    apart_of_tag "shadow" "market_funding" "positions" [] _ (by decide)⟩

theorem separated_withdrawals : Separated ["shadow", "withdrawals"] "withdrawals" zeroWithdrawals :=
  ⟨by decide, by decide, by decide, apart_of_word _ "empty" [] (by decide)⟩

/-- The words of the hashes over roots. -/
private theorem goSized_words :
    ∀ word ∈ ["shadow", "state", "v1", "orders", "positions_funding"], GoSized word := by decide

namespace ShadowMaps

theorem goSized_ordersParts (s : ShadowMaps codec) : ∀ part ∈ s.ordersParts sha256, GoSized part := by
  have hnonces : GoSized (nonceLeafRoot sha256 s.nonces) := goSized_mapRoot ..
  have horders : GoSized (leafRoot sha256 "open_orders" s.openOrders (hashText sha256 zeroOpenOrders)) :=
    goSized_mapRoot ..
  simp only [ordersParts, List.forall_mem_cons, List.not_mem_nil, false_implies, implies_true, and_true]
  exact ⟨goSized_words _ (by simp), goSized_words _ (by simp), hnonces, horders⟩

theorem goSized_positionsFundingParts (s : ShadowMaps codec) :
    ∀ part ∈ s.positionsFundingParts sha256, GoSized part := by
  have hpositions : GoSized (leafRoot sha256 "positions" s.positions (hashText sha256 zeroPositions)) :=
    goSized_mapRoot ..
  have hfunding : GoSized (leafRoot sha256 "market_funding" s.marketFunding (hashText sha256 zeroMarketFunding)) :=
    goSized_mapRoot ..
  simp only [positionsFundingParts, List.forall_mem_cons, List.not_mem_nil, false_implies, implies_true, and_true]
  exact ⟨goSized_words _ (by simp), goSized_words _ (by simp), hpositions, hfunding, goSized_hashText sha256 _⟩

theorem goSized_stateParts (s : ShadowMaps codec) : ∀ part ∈ s.stateParts sha256, GoSized part := by
  have hbalances : GoSized (s.balancesRoot sha256) := goSized_mapRoot ..
  have hwithdrawals : GoSized (s.withdrawalsRoot sha256) := goSized_mapRoot ..
  simp only [stateParts, List.forall_mem_cons, List.not_mem_nil, false_implies, implies_true, and_true]
  exact ⟨goSized_words _ (by simp), goSized_words _ (by simp), goSized_words _ (by simp), hbalances,
    goSized_hashText sha256 _, goSized_hashText sha256 _, hwithdrawals⟩

/-- The roots of the maps that two states have in common. -/
structure SameRoots (sha256 : Bytes → Bytes32) (s s' : ShadowMaps codec) : Prop where
  balances : s.balancesRoot sha256 = s'.balancesRoot sha256
  nonces : nonceLeafRoot sha256 s.nonces = nonceLeafRoot sha256 s'.nonces
  openOrders : leafRoot sha256 "open_orders" s.openOrders (hashText sha256 zeroOpenOrders) =
    leafRoot sha256 "open_orders" s'.openOrders (hashText sha256 zeroOpenOrders)
  positions : leafRoot sha256 "positions" s.positions (hashText sha256 zeroPositions) =
    leafRoot sha256 "positions" s'.positions (hashText sha256 zeroPositions)
  marketFunding : leafRoot sha256 "market_funding" s.marketFunding (hashText sha256 zeroMarketFunding) =
    leafRoot sha256 "market_funding" s'.marketFunding (hashText sha256 zeroMarketFunding)
  withdrawals : s.withdrawalsRoot sha256 = s'.withdrawalsRoot sha256

/-- **The state root gives back the roots of the maps.** -/
theorem sameRoots_of_stateRoot (hfree : Set.InjOn sha256 used)
    (hused : ∀ message ∈ s.messages sha256, message ∈ used) (hused' : ∀ message ∈ s'.messages sha256, message ∈ used)
    (h : (s.roots sha256).stateRoot = (s'.roots sha256).stateRoot) : SameRoots sha256 s s' := by
  have hstate := hashText_inj hfree (hused _ (by simp [messages])) (hused' _ (by simp [messages]))
    s.goSized_stateParts s'.goSized_stateParts h
  simp only [stateParts, List.cons.injEq, true_and, and_true] at hstate
  obtain ⟨hbalances, horders, hpositions, hwithdrawals⟩ := hstate
  have horders := hashText_inj hfree (hused _ (by simp [messages])) (hused' _ (by simp [messages]))
    s.goSized_ordersParts s'.goSized_ordersParts horders
  have hpositions := hashText_inj hfree (hused _ (by simp [messages])) (hused' _ (by simp [messages]))
    s.goSized_positionsFundingParts s'.goSized_positionsFundingParts hpositions
  simp only [ordersParts, List.cons.injEq, true_and, and_true] at horders
  simp only [positionsFundingParts, List.cons.injEq, true_and, and_true] at hpositions
  exact ⟨hbalances, horders.1, horders.2, hpositions.1, hpositions.2, hwithdrawals⟩

/-- **States with one root are equal**, among messages that do not collide. -/
theorem eq_of_stateRoot (hfree : Set.InjOn sha256 used) (hcodec : codec.Faithful)
    (hused : ∀ message ∈ s.messages sha256, message ∈ used) (hused' : ∀ message ∈ s'.messages sha256, message ∈ used)
    (h : (s.roots sha256).stateRoot = (s'.roots sha256).stateRoot) : s = s' := by
  have hroots := sameRoots_of_stateRoot hfree hused hused' h
  simp only [messages, List.forall_mem_append] at hused hused'
  obtain ⟨⟨⟨⟨⟨⟨-, hbalances⟩, hnonces⟩, horders⟩, hpositions⟩, hfunding⟩, hwithdrawals⟩ := hused
  obtain ⟨⟨⟨⟨⟨⟨-, hbalances'⟩, hnonces'⟩, horders'⟩, hpositions'⟩, hfunding'⟩, hwithdrawals'⟩ := hused'
  ext1
  · exact mapRoot_inj hfree hcodec.balance separated_balances hbalances hbalances' hroots.balances
  · exact mapRoot_inj hfree hcodec.nonce separated_nonces hnonces hnonces' hroots.nonces
  · exact mapRoot_inj hfree hcodec.order separated_openOrders horders horders' hroots.openOrders
  · exact mapRoot_inj hfree hcodec.position separated_positions hpositions hpositions' hroots.positions
  · exact mapRoot_inj hfree hcodec.marketFunding separated_marketFunding hfunding hfunding' hroots.marketFunding
  · exact mapRoot_inj hfree hcodec.withdrawal separated_withdrawals hwithdrawals hwithdrawals' hroots.withdrawals

end ShadowMaps

/-- **The state root binds the state.** If no two messages that are hashed for two states collide, and different
leaves have different encodings, states with the same root are equal; in particular, a map that is empty in one
of them is empty in the other one. -/
theorem state_root_binds (sha256 : Bytes → Bytes32) (codec : LeafCodec) (hcodec : codec.Faithful)
    (s s' : ShadowMaps codec)
    (hfree : Set.InjOn sha256 {message | message ∈ s.messages sha256 ∨ message ∈ s'.messages sha256})
    (h : (s.roots sha256).stateRoot = (s'.roots sha256).stateRoot) : s = s' :=
  ShadowMaps.eq_of_stateRoot hfree hcodec (fun _ hmessage ↦ .inl hmessage) (fun _ hmessage ↦ .inr hmessage) h

end Binding

/-! ### A sample -/

/-- The fields of a leaf, each with its length in front. -/
private def fieldsText : List String → String
  | [] => ""
  | field :: fields => toString (field.length : ℤ) ++ ":" ++ (field ++ fieldsText fields)

private theorem fieldsText_injective : Function.Injective fieldsText := by
  have hne : ∀ (field : String) (fields : List String), fieldsText (field :: fields) ≠ "" := by
    intro field fields hempty
    have hmem : ':' ∈ (fieldsText (field :: fields)).toList := by simp [fieldsText]
    rw [hempty] at hmem
    cases hmem
  intro fields
  induction fields with
  | nil =>
    intro fields' h
    cases fields' with
    | nil => rfl
    | cons field' fields' => exact absurd h.symm (hne field' fields')
  | cons field fields ih =>
    intro fields' h
    cases fields' with
    | nil => exact absurd h (hne field fields)
    | cons field' fields' =>
      obtain ⟨hlength, hrest⟩ := toString_colon_inj.mp h
      have hlists := congrArg String.toList hrest
      rw [String.toList_append, String.toList_append] at hlists
      obtain ⟨hfield, hfields⟩ := List.append_inj hlists (by
        rw [String.length_toList, String.length_toList]
        exact_mod_cast hlength)
      rw [String.toList_inj.mp hfield, ih (String.toList_inj.mp hfields)]

/-- An encoding by the fields of a leaf. -/
def sampleCodec : LeafCodec where
  balance leaf := fieldsText [toString leaf.accountID, leaf.assetID, toString leaf.freeBalance,
    toString leaf.lockedBalance, toString leaf.lastAppliedSequence]
  nonce leaf := fieldsText [toString leaf.accountID, leaf.authKeyID, toString leaf.nextNonce, leaf.keyStatus,
    leaf.scope, toString leaf.lastAppliedSequence]
  order leaf := fieldsText [leaf.orderID, toString leaf.accountID, toString leaf.marketID, leaf.outcome, leaf.side,
    toString leaf.price, toString leaf.originalQuantity, toString leaf.filledQuantity,
    toString leaf.remainingQuantity, leaf.reserveAsset, toString leaf.reservedCollateral, leaf.status,
    toString leaf.lastAppliedSequence]
  position leaf := fieldsText [toString leaf.accountID, toString leaf.marketID, leaf.outcome,
    toString leaf.quantity, toString leaf.costBasis, toString leaf.realizedPnL, toString leaf.fundingSnapshot,
    leaf.settlementStatus, toString leaf.lastAppliedSequence]
  marketFunding leaf := fieldsText [toString leaf.marketID, toString leaf.cumulativeFundingIndex,
    leaf.lastOracleRef, leaf.marketSettlementState, leaf.resolvedOutcome, toString leaf.lastAppliedSequence]
  withdrawal leaf := fieldsText [leaf.withdrawalID, toString leaf.accountID, leaf.assetID, toString leaf.amount,
    leaf.recipient, leaf.lane, leaf.status, leaf.beneficiary, toString leaf.requestSequence, leaf.claimNullifier]

theorem sampleCodec_faithful : sampleCodec.Faithful := by
  constructor <;>
  · rintro ⟨⟩ ⟨⟩ h
    have hfields := fieldsText_injective h
    simp only [List.cons.injEq, toString_int_injective.eq_iff, toString_injective.eq_iff] at hfields
    simp only [hfields]

/-- A hash that is free of collisions on a few messages. -/
def sampleHash (message : Bytes) : Bytes32 :=
  ⟨uintBytes 32 (message.foldl (fun sum byte ↦ (sum * 257 + byte.toNat + 1) % (2 ^ 255 - 19)) 0),
    length_uintBytes 32 _⟩

/-- The state with one balance. -/
def withBalance (leaf : BalanceLeaf) (h : GoSized (sampleCodec.balance leaf)) : ShadowMaps sampleCodec :=
  { ShadowMaps.empty sampleCodec with
    balances := ⟨[("7:USDT", leaf)], List.pairwise_singleton _ _, by
      have hkey : GoSized "7:USDT" := by decide
      simpa using ⟨hkey, h⟩⟩ }

/-- The state after a deposit of 100. -/
def deposited : ShadowMaps sampleCodec := withBalance ⟨7, "USDT", 100, 0, 1⟩ (by decide)

/-- The same with the amount in two parts. -/
private def depositedInParts : ShadowMaps sampleCodec := withBalance ⟨7, "USDT", 60 + 40, 0, 1⟩ (by decide)

set_option maxRecDepth 20000 in
theorem sampleHash_free : Set.InjOn sampleHash {message | message ∈ deposited.messages sampleHash ∨
    message ∈ (ShadowMaps.empty sampleCodec).messages sampleHash} := by
  have hnodup : (((deposited.messages sampleHash ++ (ShadowMaps.empty sampleCodec).messages sampleHash).dedup).map
      sampleHash).Nodup := by decide +kernel
  intro m hm m' hm' heq
  exact List.inj_on_of_nodup_map hnodup (List.mem_dedup.mpr (List.mem_append.mpr hm))
    (List.mem_dedup.mpr (List.mem_append.mpr hm')) heq

/-- The roots of the state with a deposit and of the empty state differ. -/
theorem state_root_binds_deposited : deposited = depositedInParts ∧
    (deposited.roots sampleHash).stateRoot ≠ ((ShadowMaps.empty sampleCodec).roots sampleHash).stateRoot := by
  constructor
  · have hsame : (deposited.roots sampleHash).stateRoot = (depositedInParts.roots sampleHash).stateRoot := rfl
    refine state_root_binds sampleHash sampleCodec sampleCodec_faithful deposited depositedInParts ?_ hsame
    exact sampleHash_free.mono fun m hm ↦ .inl (hm.elim id id)
  · intro hsame
    have heq := state_root_binds sampleHash sampleCodec sampleCodec_faithful deposited _ sampleHash_free hsame
    exact absurd (congrArg (fun s ↦ s.balances.rows.length) heq) (by decide)

end FunnyOption.Rollup
