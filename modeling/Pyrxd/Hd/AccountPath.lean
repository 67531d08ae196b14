import Pyrxd.Glyph.Metadata
import Pyrxd.Hd.Path

/-!
# The path of an account

What constructs and loads an `HdWallet` in `hd/wallet.py`, as far as it fixes
the path of its account key. The coin type is checked wherever it enters; the
account goes into the path as it is, and `step_to_index` takes the sum of mark
and number for the number of a step. So a step may denote another step, and an
account may lie at a path that is not hardened or at none: `paths_denote_iff`
says which do not.
-/

namespace Pyrxd.Hd

open Pyrxd.Lib


/-! ## The wallet's path -/

/-- What a coin type may be given as, with the type's name where it is
neither. -/
inductive CoinArg where
  | int (n : Int)
  | bool (b : Bool)
  | other (typeName : String)

/-- `type(value).__name__`. -/
def CoinArg.typeName : CoinArg → String
  | .int _ => "int"
  | .bool _ => "bool"
  | .other typeName => typeName

/-- `_validate_coin_type`. -/
def validateCoinType (value : CoinArg) (source : String) : Except PyErr Int :=
  match value with
  | .int n => do
    refuseIf (¬ (0 ≤ n ∧ n < 2 ^ 31))
      (source ++ " coin_type " ++ toString n ++
        " out of BIP44 hardened range [0, 2**31). " ++
        "BIP44 reserves the high bit for the hardening flag; pyrxd applies " ++
        "it automatically, so the unhardened integer must fit in 31 bits.")
    return n
  | value =>
    invalid (source ++ " coin_type must be a non-bool int (got " ++
      value.typeName ++ ")")

/-- The fields of an `HdWallet` that its account key is derived from. -/
structure WalletFields where
  seed : Bytes
  account : Int := 0
  coinType : Int
deriving DecidableEq

/-- `HdWallet.__post_init__`. -/
def WalletFields.postInit (f : WalletFields) : Except PyErr Unit := do
  let _ ← validateCoinType (.int f.coinType) "HdWallet constructor"
  return ()

/-- An `HdWallet` that was constructed. -/
structure WalletSeed extends WalletFields where
  valid : toWalletFields.postInit = .ok ()

def WalletSeed.new (f : WalletFields) : Except PyErr WalletSeed := do
  let h ← postInitOk WalletFields.postInit f
  return ⟨f, h.down⟩

section Construct

variable (u : Unicode)

/-- `_parse_radiant_path`, of a path that is given: its coin type. -/
def parseRadiantPath (path : String) : Except PyErr Int := do
  let parts := Text.split '/' path
  match parts[2]? with
  | none =>
    .error (.other ("derivation path " ++ Glyph.reprStr path ++
      " is malformed; expected at least m/44'/<coin_type>'"))
  | some part =>
    match u.int (Text.rstrip apostrophe part) with
    | .ok coinType => .ok coinType
    | .error _ =>
      .error (.other ("derivation path " ++
        Glyph.reprStr path ++ " has non-integer coin type " ++
        Glyph.reprStr (Text.rstrip apostrophe part)))

/-- `_resolve_coin_type`; `configured` is `BIP44_DERIVATION_PATH`. -/
def resolveCoinType (configured : String) : Option CoinArg → Except PyErr Int
  | none => parseRadiantPath u configured
  | some coinType => validateCoinType coinType "kwarg"

/-- `HdWallet.from_mnemonic`, from what `seed_from_mnemonic` gives. -/
def WalletSeed.fromMnemonic (configured : String) (seed : Except PyErr Bytes)
    (account : Int)
    (coinType : Option CoinArg) : Except PyErr WalletSeed := do
  let coinType ← resolveCoinType u configured coinType
  let seed ← seed
  WalletSeed.new { seed, account, coinType }

/-- A value of the wallet file, and what `int()` makes of it. -/
structure FileValue where
  coin : CoinArg
  int : Except PyErr Int

/-- `HdWallet._load_existing`, from the decoded file on, of the fields that fix
the path. -/
def WalletSeed.loadExisting (path : String) (seed : Bytes)
    (data : List (String × FileValue)) (coinType : Option Int) :
    Except PyErr WalletSeed := do
  let account ← match data.lookup "account" with
    | some value => value.int
    | none => .ok 0
  match data.lookup "coin_type" with
  | none =>
    invalid ("Wallet file at " ++ path ++
      " is missing required field 'coin_type'. " ++
      "v2 wallets always persist this field; absence indicates corruption " ++
      "or hand-editing. Re-create the wallet from mnemonic with an explicit coin_type kwarg to recover.")
  | some value => do
    let persisted ← validateCoinType value.coin ("wallet file at " ++ path)
    match coinType with
    | some coinType =>
      refuseIf (coinType ≠ persisted)
        ("Wallet file at " ++ path ++ " was saved at coin type " ++
          toString persisted ++
          " (BIP44 path m/44'/" ++ toString persisted ++
            "'/...) but you passed coin_type=" ++ toString coinType ++
            ". Pass coin_type=" ++ toString persisted ++
            " to load this wallet, or use a different file.")
    | none => .ok ()
    WalletSeed.new { seed, account, coinType := persisted }

end Construct

/-- `Xprv.from_seed`, on the main network. -/
def Xprv.fromSeed {Key Secret : Type} (hd : HdCurve Key Secret) (seed : Bytes) :
    Except PyErr (Xprv Secret) := do
  refuseIf (seed.length ≠ 64) "invalid seed byte length"
  let h := hd.hmacSha512 [0x42, 0x69, 0x74, 0x63, 0x6F, 0x69, 0x6E, 0x20, 0x73,
    0x65, 0x65, 0x64] seed
  Xprv.ofPayload hd ([0x04, 0x88, 0xAD, 0xE4, 0x00, 0, 0, 0, 0, 0, 0, 0, 0] ++
    h.drop 32 ++ 0x00 :: h.take 32)

namespace WalletSeed

variable {Key Secret : Type} (hd : HdCurve Key Secret) (u : Unicode)
  (w : WalletSeed)

/-- The path that `_xprv` derives at. -/
def accountPath : String := "m/44'/" ++ toString w.coinType ++ "'/" ++
  toString w.account ++ "'"

/-- `HdWallet._xprv`, of a wallet that is not zeroized. -/
def xprv : Except PyErr (Xprv Secret) := do
  let master ← Xprv.fromSeed hd w.seed
  let account ← ckd hd u (.xprv master) w.accountPath
  match account with
  | .xprv x => .ok x
  | .xpub _ =>
    .error (.validation "account derivation did not yield a private xprv")

/-- The indices of the path. -/
def accountIndices : Except PyErr (List Int) :=
  (pathSteps w.accountPath).tail.mapM fun step => stepToIndex u (.text step)

end WalletSeed

/-! ## What should hold -/

/-- The step a string is read as has an index of its kind. -/
def Denotes (read : Bool × Int) (i : Int) : Prop := if read.1 then 2 ^ 31 ≤ i
  else i < 2 ^ 31

/-- The account key is derived along `m/44'/coin'/account'`, which is
hardened. -/
structure AccountAt {Key Secret : Type} (hd : HdCurve Key Secret) (u : Unicode)
    (w : WalletSeed) : Prop where
  indices : w.accountIndices u = .ok [2 ^ 31 + 44, 2 ^ 31 + w.coinType,
    2 ^ 31 + w.account]
  hardened : (2 ^ 31 ≤ 2 ^ 31 + w.coinType ∧ 2 ^ 31 + w.coinType < 2 ^ 32) ∧
    2 ^ 31 ≤ 2 ^ 31 + w.account ∧ 2 ^ 31 + w.account < 2 ^ 32
  derived : w.xprv hd u = do
    let master ← Xprv.fromSeed hd w.seed
    let purpose ← master.ckd hd (2 ^ 31 + 44)
    let coin ← purpose.ckd hd (2 ^ 31 + w.coinType)
    coin.ckd hd (2 ^ 31 + w.account)

/-! ## The steps -/

section Steps

variable {u : Unicode} {s t : String} {read : Bool × Int} {i j : Int}

/-- A step denotes its index exactly when the number is below `2^31`. -/
theorem denotes_iff (hread : readStep u s = .ok read)
    (hi : stepToIndex u (.text s) = .ok i) :
    Denotes read i ↔ 0 ≤ read.2 ∧ read.2 < 2 ^ 31 := by
  obtain ⟨read', hread', hsum, hrange⟩ := stepToIndex_ok.mp hi
  rw [hread, Except.ok.injEq] at hread'
  rw [← hread'] at hsum
  rw [Denotes]
  by_cases hmark : read.1 = true
  · rw [if_pos hmark] at hsum ⊢
    omega
  · rw [if_neg hmark] at hsum ⊢
    omega

/-- Steps whose indices are of their kinds are told apart by them. -/
theorem same_step {read' : Bool × Int} (hread : readStep u s = .ok read)
    (hread' : readStep u t = .ok read')
    (hi : stepToIndex u (.text s) = .ok i)
    (hj : stepToIndex u (.text t) = .ok j) (h : Denotes read i)
    (h' : Denotes read' j) (heq : i = j) : read = read' := by
  obtain ⟨r, hr, hsum, -⟩ := stepToIndex_ok.mp hi
  obtain ⟨r', hr', hsum', -⟩ := stepToIndex_ok.mp hj
  rw [hread, Except.ok.injEq] at hr
  rw [hread', Except.ok.injEq] at hr'
  obtain ⟨mark, number⟩ := read
  obtain ⟨mark', number'⟩ := read'
  rw [← hr] at hsum
  rw [← hr'] at hsum'
  cases mark <;> cases mark' <;> simp only [Denotes, if_true, if_false,
    Bool.false_eq_true] at h h' hsum hsum'
  · rw [Prod.mk.injEq]
    exact ⟨rfl, by omega⟩
  · omega
  · omega
  · rw [Prod.mk.injEq]
    exact ⟨rfl, by omega⟩

end Steps

/-! ## The account -/

namespace WalletSeed

/-- A hardened number holds no slash. -/
theorem slash_not_mem (n : Int) : '/' ∉ (toString n ++ "'").toList := by
  rw [String.toList_append, List.mem_append, not_or]
  refine ⟨fun h => ?_, by decide⟩
  rcases ascii_toString n _ h with h | h
  · exact absurd h (by decide)
  · exact absurd h (by decide)

/-- The steps of an account path. -/
theorem pathSteps_account (w : WalletSeed) :
    pathSteps w.accountPath = ["m", "44'", toString w.coinType ++ "'",
      toString w.account ++ "'"] := by
  have hchars : w.accountPath.toList = "m/44'".toList ++
      '/' :: (toString w.coinType ++ "'" ++ "/" ++
      (toString w.account ++ "'")).toList := by
    simp only [accountPath, String.toList_append, List.append_assoc]
    rfl
  have htail : (toString w.coinType ++ "'" ++ "/" ++
      (toString w.account ++ "'")).toList =
      (toString w.coinType ++ "'").toList ++
        '/' :: (toString w.account ++ "'").toList := by
    rw [String.toList_append, String.toList_append, List.append_assoc]
    rfl
  have hlast : w.accountPath.toList.getLast? = some apostrophe := by
    rw [accountPath, String.toList_append]
    exact List.getLast?_concat
  obtain ⟨l, hl⟩ : ∃ l, w.accountPath.toList = 'm' :: l := ⟨_, hchars⟩
  rw [hl] at hlast
  rw [pathSteps, Text.strip_of_ends hl (by decide) hlast (by decide),
    Text.strip_of_ends hl (by decide) hlast (by decide),
    Text.split_append hchars, Text.split_append htail, Text.split_of_not_mem
    (slash_not_mem _), Text.split_of_not_mem (slash_not_mem _)]
  rfl

/-- The coin type of a wallet is one that was checked. -/
theorem coinType_range (w : WalletSeed) :
    0 ≤ w.coinType ∧ w.coinType < 2 ^ 31 := by
  obtain ⟨_, h, -⟩ := bind_ok.mp w.valid
  obtain ⟨hrange, -⟩ := refuseIf_bind_ok.mp h
  exact not_not.mp hrange

theorem accountIndices_ok {u : Unicode} {w : WalletSeed} {is : List Int} :
    w.accountIndices u = .ok is ↔
    is = [2 ^ 31 + 44, 2 ^ 31 + w.coinType, 2 ^ 31 + w.account] ∧
    2 ^ 31 + w.coinType < 0xFFFFFFFF ∧
      0 ≤ 2 ^ 31 + w.account ∧ 2 ^ 31 + w.account < 0xFFFFFFFF := by
  have hpurpose : stepToIndex u (.text "44'") = .ok (2 ^ 31 + 44) :=
    (stepToIndex_hardened 44).mpr (by decide)
  have hcoin := w.coinType_range
  rw [accountIndices, pathSteps_account, List.tail_cons]
  simp only [mapM_cons_ok, hpurpose, stepToIndex_hardened]
  constructor
  · rintro ⟨a, t, ha, ⟨b, t', ⟨hb, hbrange⟩,
      ⟨c, t'', ⟨hc, hcrange⟩, hnil, rfl⟩, rfl⟩, rfl⟩
    cases ha
    cases hnil
    subst hb hc
    exact ⟨rfl, hbrange.2, hcrange⟩
  · rintro ⟨rfl, hlt, hrange⟩
    exact ⟨_, _, rfl, ⟨_, _, ⟨rfl, by omega, hlt⟩,
      ⟨_, _, ⟨rfl, hrange⟩, rfl, rfl⟩, rfl⟩, rfl⟩

section Derived

variable {Key Secret : Type} {hd : HdCurve Key Secret} {u : Unicode}
  {w : WalletSeed}

/-- A key made from a seed is a master key. -/
theorem fromSeed_isMaster {seed : Bytes} {x : Xprv Secret}
    (h : Xprv.fromSeed hd seed = .ok x) :
    (Xkey.xprv x : Xkey Key Secret).IsMaster := by
  obtain ⟨-, h⟩ := refuseIf_bind_ok.mp h
  obtain ⟨hpayload, -⟩ := Xprv.ofPayload_ok.mp h
  show xkeyDepth x.payload = 0 ∧ xkeyFingerprint x.payload = _ ∧
    beNat (xkeyIndex x.payload) = 0
  rw [hpayload]
  exact ⟨rfl, rfl, rfl⟩

/-- An absolute path of accepted steps, from a master key. -/
theorem ckd_account {a b c : Int} (h : w.accountIndices u = .ok [a, b, c])
    {master : Xprv Secret}
    (hmaster : (Xkey.xprv master : Xkey Key Secret).IsMaster) :
    ckd hd u (.xprv master) w.accountPath = (do
      let purpose ← master.ckd hd a
      let coin ← purpose.ckd hd b
      let account ← coin.ckd hd c
      return .xprv account) := by
  rw [accountIndices, pathSteps_account, List.tail_cons] at h
  simp only [mapM_cons_ok] at h
  obtain ⟨a', t, ha, ⟨b', t', hb, ⟨c', t'', hc, hnil, rfl⟩, rfl⟩, heq⟩ := h
  cases hnil
  cases heq
  have hstarts : Starts (Xkey.xprv master : Xkey Key Secret) w.accountPath := by
    rw [Starts, pathSteps_account]
    exact .inr ⟨rfl, hmaster⟩
  rw [ckd_eq hstarts, pathSteps_account, List.tail_cons, walkSteps]
  simp only [List.foldlM_cons, List.foldlM_nil, ha, hb, hc, ok_bind, Xkey.ckd]
  cases master.ckd hd a with
  | error e => rfl
  | ok purpose =>
    simp only [ok_bind, pure_eq_ok]
    cases purpose.ckd hd b with
    | error e => rfl
    | ok coin =>
      simp only [ok_bind]
      cases coin.ckd hd c <;> rfl

/-- Where the steps are accepted, the account key is derived along their
indices. -/
theorem xprv_eq {a b c : Int} (h : w.accountIndices u = .ok [a, b, c]) :
    w.xprv hd u = (do
    let master ← Xprv.fromSeed hd w.seed
    let purpose ← master.ckd hd a
    let coin ← purpose.ckd hd b
    coin.ckd hd c) := by
  unfold xprv
  refine bind_congr_ok fun master hmaster => ?_
  rw [ckd_account h (fromSeed_isMaster hmaster)]
  cases master.ckd hd a with
  | error e => rfl
  | ok purpose =>
    simp only [ok_bind]
    cases purpose.ckd hd b with
    | error e => rfl
    | ok coin =>
      simp only [ok_bind]
      cases coin.ckd hd c <;> rfl

/-- When an account is derived at its own path. -/
theorem accountAt_iff : AccountAt hd u w ↔
    (0 ≤ w.account ∧ w.account < 2 ^ 31 - 1) ∧ w.coinType < 2 ^ 31 - 1 := by
  have hcoin := w.coinType_range
  constructor
  · intro h
    obtain ⟨-, hlt, hrange⟩ := accountIndices_ok.mp h.indices
    have haccount := h.hardened.2
    omega
  · intro h
    have hindices : w.accountIndices u = .ok [2 ^ 31 + 44, 2 ^ 31 + w.coinType,
        2 ^ 31 + w.account] :=
      accountIndices_ok.mpr ⟨rfl, by omega⟩
    exact ⟨hindices, by omega, xprv_eq hindices⟩

end Derived

end WalletSeed

/-- **When steps and accounts are what they say**: a step, when its number is
below the mark, and not negative; an account key, when that holds of the account
and neither the account nor the coin type is the last number below it. -/
theorem paths_denote_iff {Key Secret : Type} (hd : HdCurve Key Secret)
    (u : Unicode) :
    (∀ (s t : String) (read read' : Bool × Int) (i j : Int), readStep u s =
      .ok read → readStep u t = .ok read' → stepToIndex u (.text s) = .ok i →
      stepToIndex u (.text t) = .ok j →
        (Denotes read i ∧ Denotes read' j ∧ (i = j → read = read') ↔
          (0 ≤ read.2 ∧ read.2 < 2 ^ 31) ∧ 0 ≤ read'.2 ∧ read'.2 < 2 ^ 31)) ∧
    (∀ w : WalletSeed, AccountAt hd u w ↔
      (0 ≤ w.account ∧ w.account < 2 ^ 31 - 1) ∧ w.coinType < 2 ^ 31 - 1) ∧
    ∀ (w w' : WalletSeed) (is : List Int), w.accountIndices u = .ok is →
    w'.accountIndices u = .ok is →
      w.coinType = w'.coinType ∧ w.account = w'.account := by
  refine ⟨fun s t read read' i j hread hread' hi hj => ?_,
    fun w => WalletSeed.accountAt_iff, fun w w' is h h' => ?_⟩
  · rw [denotes_iff hread hi, denotes_iff hread' hj]
    constructor
    · rintro ⟨h, h', -⟩
      exact ⟨h, h'⟩
    · rintro ⟨h, h'⟩
      exact ⟨h, h', same_step hread hread' hi hj ((denotes_iff hread hi).mpr h)
        ((denotes_iff hread' hj).mpr h')⟩
  · obtain ⟨hw, -⟩ := WalletSeed.accountIndices_ok.mp h
    obtain ⟨hw', -⟩ := WalletSeed.accountIndices_ok.mp h'
    rw [hw] at hw'
    simp only [List.cons.injEq, Int.add_right_inj, true_and, and_true] at hw'
    exact hw'

/-- `2147483648` and `0'` are two steps to one index, and account -1 lies at an
index that is not hardened. -/
theorem paths_collide :
    (readStep asciiOnly "2147483648" = .ok (false, 2147483648) ∧
      readStep asciiOnly "0'" = .ok (true, 0) ∧
      stepToIndex asciiOnly (.text "2147483648") = .ok 2147483648 ∧
      stepToIndex asciiOnly (.text "0'") = .ok 2147483648) ∧
    ∃ w, WalletSeed.fromMnemonic asciiOnly "m/44'/512'/0'"
      (.ok (List.replicate 64 7)) (-1) none = .ok w ∧
    w.accountIndices asciiOnly = .ok [2 ^ 31 + 44, 2 ^ 31 + 512, 2 ^ 31 - 1] ∧
      ¬ ∃ (Key Secret : Type) (hd : HdCurve Key Secret),
        AccountAt hd asciiOnly w := by
  have hvalid : WalletFields.postInit { seed := List.replicate 64 7, account := -1, coinType := 512 } = .ok () := by decide
  have hindices : (⟨_, hvalid⟩ : WalletSeed).accountIndices asciiOnly =
      .ok [2 ^ 31 + 44, 2 ^ 31 + 512, 2 ^ 31 - 1] :=
    WalletSeed.accountIndices_ok.mpr ⟨rfl,
      show (2 : Int) ^ 31 + 512 < 0xFFFFFFFF ∧ 0 ≤ (2 : Int) ^ 31 + -1 ∧
        (2 : Int) ^ 31 + -1 < 0xFFFFFFFF by decide⟩
  refine ⟨by decide, ⟨_, hvalid⟩, ?_, hindices, ?_⟩
  · unfold WalletSeed.fromMnemonic
    refine bind_ok.mpr ⟨512, by decide, bind_ok.mpr ⟨_, rfl, ?_⟩⟩
    exact bind_ok.mpr ⟨_, postInitOk_of hvalid, rfl⟩
  · rintro ⟨Key, Secret, hd, h⟩
    exact absurd h.hardened.2.1 (show ¬ (2 : Int) ^ 31 ≤ 2 ^ 31 + -1 by decide)

end Pyrxd.Hd
