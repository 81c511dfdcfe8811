import SolanaStablecoin.Verify.OracleFeeds
import SolanaStablecoin.Verify.Settings

/-! Whose price a custom feed holds. The adapter compares the authority that the account names with
the config's and looks at no owner, so that only the configured address tells the account of the
program from one that anybody has made. -/

namespace SolanaStablecoin

open Transition

variable {rt : Runtime} {clock : Clock} {s s' : State} {c : StablecoinConfig} {a : Action}
  {i : Instruction} {M feed : Pubkey} {p : OraclePrice}

/-- A price that is stored for a stablecoin, and on whose behalf. -/
structure PriceUpdate where
  sssMint : Pubkey
  authority : Pubkey
  price : OraclePrice

def Action.stores (_ : State) : Action → List PriceUpdate
  | .call _ (.updateCustomPrice b price expo conf) =>
    [{ sssMint := b.mint, authority := b.authority.key, price := { price, conf, expo } }]
  | _ => []

/-- The price has been stored for `M` by `authority`. -/
def Stored (h : List PriceUpdate) (M authority : Pubkey) (p : OraclePrice) : Prop :=
  ∃ u ∈ h, u.sssMint = M ∧ u.authority = authority ∧ u.price = p

/-- Whatever feed the adapter is given, it takes the account that the program has made for `M` and
no other, and returns a price that was stored there on behalf of the authority. -/
def Authentic (h : List PriceUpdate) (s : State) (M : Pubkey) (c : StablecoinConfig) : Prop :=
  ∀ rt clock feed p, getOraclePrice rt clock s feed c = .ok p →
    feed = .customPriceFeed M ∧ Stored h M c.authority p

/-! ## The account of the program -/

/-- The instruction writes a custom price feed. -/
def Instruction.quotes : Instruction → Bool
  | initCustomPriceFeed .. | updateCustomPrice .. => true
  | _ => false

theorem Instruction.sameFeeds (hi : i.quotes = false) :
    Ensures (i.exec rt clock s) fun s' => s'.customPriceFeeds = s.customPriceFeeds := by
  intro s' h
  refine exec_same State.customPriceFeeds (fun t => ?_) h
  cases i with
  | _ => first | rfl | cases hi

/-- Nobody but the program makes an account at an address that it derives. -/
theorem World.exec_derivedFeed {w : World} {k : Pubkey} (hk : k.canSign = false)
    (h : w.exec rt s = .ok s') : s'.customPriceFeeds k = s.customPriceFeeds k := by
  cases w with
  | createMint | createAccount | mintTo | approve | setAccountOwner =>
    simp only [World.exec, bind_eq_ok, pure_eq_ok] at h
    obtain ⟨t, -, rfl⟩ := h
    rfl
  | transfer =>
    simp only [World.exec, bind_eq_ok, pure_eq_ok] at h
    obtain ⟨b, -, -, -, t, -, rfl⟩ := h
    rfl
  | publishPythPrice | writeAccount =>
    cases h
    rfl
  | forgePriceFeed feed p =>
    cases h
    refine put_of_ne _ _ fun heq => ?_
    rw [heq, feed.canSign] at hk
    cases hk

theorem initCustomPriceFeedHandler_feeds {b : AuthorityAndMint}
    (h : initCustomPriceFeedHandler rt s b = .ok s') :
    ∃ f, s'.customPriceFeeds = put s.customPriceFeeds (.customPriceFeed b.mint) f ∧
      f.lastUpdateUnixTimestamp = 0 := by
  simp only [initCustomPriceFeedHandler, bind_eq_ok, pure_eq_ok] at h
  obtain ⟨c, -, -, -, -, -, -, -, rfl⟩ := h
  exact ⟨_, rfl, rfl⟩

theorem updateCustomPriceHandler_feeds {b : AuthorityAndMint} {price : Int64} {expo : Int32}
    {conf : UInt64} (h : updateCustomPriceHandler clock s b price expo conf = .ok s') :
    ∃ f, s'.customPriceFeeds = put s.customPriceFeeds (.customPriceFeed b.mint) f ∧
      f.authority = b.authority.key ∧ f.price = price ∧ f.conf = conf ∧ f.expo = expo := by
  simp only [updateCustomPriceHandler, bind_eq_ok, require_eq_ok, pure_eq_ok] at h
  obtain ⟨c, -, f, -, -, hauth, -, -, -, -, rfl⟩ := h
  exact ⟨_, rfl, hauth, rfl, rfl, rfl⟩

/-- The account of `M`, if there is one, was never updated or holds a stored price. -/
def FeedStored (M : Pubkey) (s : State) (h : List PriceUpdate) : Prop :=
  ∀ f, s.customPriceFeeds (.customPriceFeed M) = some f →
    f.lastUpdateUnixTimestamp = 0 ∨
      Stored h M f.authority { price := f.price, conf := f.conf, expo := f.expo }

theorem Stored.append {h h' : List PriceUpdate} {authority : Pubkey} (hs : Stored h M authority p) :
    Stored (h ++ h') M authority p := by
  obtain ⟨u, hu, hstored⟩ := hs
  exact ⟨u, List.mem_append_left h' hu, hstored⟩

theorem FeedStored.of_same {h h' : List PriceUpdate} (hs : FeedStored M s h)
    (hsame : s'.customPriceFeeds (.customPriceFeed M) = s.customPriceFeeds (.customPriceFeed M)) :
    FeedStored M s' (h ++ h') := by
  intro f hf
  rw [hsame] at hf
  exact (hs f hf).imp_right Stored.append

/-- An account that is written anew is the one of `M`, or another. -/
theorem FeedStored.of_put {mint : Pubkey} {f : CustomPriceFeed} {h h' : List PriceUpdate}
    (hs : FeedStored M s h)
    (hput : s'.customPriceFeeds = put s.customPriceFeeds (.customPriceFeed mint) f)
    (hnew : mint = M → f.lastUpdateUnixTimestamp = 0 ∨
      Stored h' M f.authority { price := f.price, conf := f.conf, expo := f.expo }) :
    FeedStored M s' (h ++ h') := by
  intro g hg
  rw [hput] at hg
  rcases put_eq_some.mp hg with ⟨heq, rfl⟩ | ⟨-, hg⟩
  · refine (hnew (Pubkey.customPriceFeed.inj heq).symm).imp_right ?_
    rintro ⟨u, hu, hstored⟩
    exact ⟨u, List.mem_append_right h hu, hstored⟩
  · exact (hs g hg).imp_right Stored.append

theorem FeedStored.step {h : List PriceUpdate} (hs : FeedStored M s h)
    (hexec : a.exec rt s = .ok s') : FeedStored M s' (h ++ a.stores s) := by
  cases a with
  | world w => exact hs.of_same (World.exec_derivedFeed rfl hexec)
  | call clock i =>
    cases hi : i.quotes with
    | false => exact hs.of_same (congrFun (Instruction.sameFeeds hi s' hexec) _)
    | true =>
      cases i with
      | initCustomPriceFeed b =>
        obtain ⟨f, hput, hnever⟩ := initCustomPriceFeedHandler_feeds hexec
        exact hs.of_put hput fun _ => .inl hnever
      | updateCustomPrice b price expo conf =>
        obtain ⟨f, hput, hauth, rfl, rfl, rfl⟩ := updateCustomPriceHandler_feeds hexec
        refine hs.of_put hput ?_
        rintro rfl
        exact .inr ⟨_, List.mem_singleton_self _, rfl, hauth.symm, rfl⟩
      | _ => cases hi

/-! ## What the adapter takes -/

/-- The prices that a run stores. -/
def updates (rt : Runtime) (s : State) (as : List Action) : List PriceUpdate :=
  history (Action.exec rt) Action.stores s as

theorem run_feedStored (hs : s.customPriceFeeds (.customPriceFeed M) = none) (as : List Action) :
    FeedStored M (run rt s as) (updates rt s as) := by
  have hstart : FeedStored M s [] := fun f hf => nomatch hs.symm.trans hf
  have hall : Along (Action.exec rt) (fun _ _ => True) s as := along_of_forall fun _ _ _ => trivial
  exact invariant_history (I := FeedStored M) (fun hi _ hexec => hi.step hexec) hstart hall

theorem getOraclePrice_custom (hc : c.oracleType = oracleCustom)
    (h : getOraclePrice rt clock s feed c = .ok p) :
    validateFeedKey feed c = .ok () ∧ ∃ f, s.customPriceFeeds feed = some f ∧
      f.authority = c.authority ∧ f.lastUpdateUnixTimestamp.toInt > 0 ∧
      p = { price := f.price, conf := f.conf, expo := f.expo } := by
  simp only [getOraclePrice, bind_eq_ok, pure_eq_ok] at h
  obtain ⟨_, hvalid, q, hadapter, -, -, -, -, rfl⟩ := h
  rw [adapterPrice, hc, if_neg (by decide), if_neg (by decide), if_pos rfl] at hadapter
  simp only [Custom.getPrice, bind_eq_ok, Option.okOr_eq_ok, require_eq_ok, pure_eq_ok] at hadapter
  obtain ⟨f, hf, -, hauth, -, ⟨hupdated, -⟩, rfl⟩ := hadapter
  exact ⟨hvalid, f, hf, hauth, hupdated, rfl⟩

/-- A config that names the account of its own stablecoin has an authentic oracle. -/
theorem FeedStored.authentic {h : List PriceUpdate} (hs : FeedStored M s h)
    (htype : c.oracleType = oracleCustom) (hfeed : c.oracleFeed = .customPriceFeed M) :
    Authentic h s M c := by
  intro rt clock feed p hp
  obtain ⟨hvalid, f, hf, hauth, hupdated, rfl⟩ := getOraclePrice_custom htype hp
  have hset : c.oracleFeed ≠ .default := by
    rw [hfeed]
    exact fun heq => nomatch heq
  rw [validateFeedKey, if_pos hset, require_eq_ok, hfeed] at hvalid
  subst hvalid
  refine ⟨rfl, ?_⟩
  rcases hs f hf with hnever | hstored
  · rw [hnever] at hupdated
    exact absurd hupdated (by decide)
  · rwa [hauth] at hstored

/-- An address of which somebody can make an account that the adapter takes. -/
def StablecoinConfig.Forgeable (c : StablecoinConfig) : Prop :=
  c.oracleFeed = .default ∨ c.oracleFeed.canSign = true

/-- What somebody may put at such an address. -/
def StablecoinConfig.forgery (c : StablecoinConfig) : CustomPriceFeed :=
  { authority := c.authority, price := 1, lastUpdateUnixTimestamp := 1 }

theorem getOraclePrice_forged (htype : c.oracleType = oracleCustom)
    (hvalid : validateFeedKey feed c = .ok ()) (hf : s.customPriceFeeds feed = some c.forgery) :
    getOraclePrice rt firstSecond s feed c = .ok { price := 1, conf := 0, expo := 0 } := by
  have hadapter : adapterPrice rt firstSecond s feed c =
      .ok { price := 1, conf := 0, expo := 0 } := by
    rw [adapterPrice, htype, if_neg (by decide), if_neg (by decide), if_pos rfl, Custom.getPrice,
      hf]
    simp [StablecoinConfig.forgery, firstSecond, show Int64.saturatingSub 1 1 = 0 from rfl]
  rw [getOraclePrice, hvalid, hadapter]
  simp [checkConf_zero]

/-- One transaction of anybody is enough to have it take a price that nobody stored. -/
theorem StablecoinConfig.Forgeable.not_authentic {h : List PriceUpdate} (hc : c.Forgeable)
    (htype : c.oracleType = oracleCustom) :
    ∃ feed, ¬ Authentic h (next (Action.exec rt) s (.world (.forgePriceFeed feed c.forgery))) M
      c := by
  have refuted (feed : Signer) (hvalid : validateFeedKey feed.key c = .ok ()) :
      ¬ Authentic h (next (Action.exec rt) s (.world (.forgePriceFeed feed c.forgery))) M c := by
    intro hauthentic
    have hsigner := feed.canSign
    rw [(hauthentic rt firstSecond feed.key _ (getOraclePrice_forged htype hvalid
      (put_self ..))).1] at hsigner
    cases hsigner
  rcases hc with hdefault | hsigns
  · refine ⟨⟨.key 1, rfl⟩, refuted _ ?_⟩
    rw [validateFeedKey, if_neg (not_not.mpr hdefault), requireWhen_eq_ok, htype]
    exact fun hpyth => absurd hpyth.1 (by decide)
  · refine ⟨⟨c.oracleFeed, hsigns⟩, refuted _ ?_⟩
    exact validateFeedKey_configured fun hpyth => absurd (htype.symm.trans hpyth.2) (by decide)

/-- Along every run the oracle of a config is authentic if the config names the account of its
stablecoin, and anybody can make it lie if the config names none, or one that somebody signs for. -/
theorem custom_feed_authentic (hs : s.customPriceFeeds (.customPriceFeed M) = none)
    (as : List Action) :
    ∀ c, (run rt s as).configs (.stablecoinConfig M) = some c → c.oracleType = oracleCustom →
      (c.oracleFeed = .customPriceFeed M → Authentic (updates rt s as) (run rt s as) M c) ∧
      (c.Forgeable → ∃ feed, ¬ Authentic
        (updates rt s (as ++ [.world (.forgePriceFeed feed c.forgery)]))
        (run rt s (as ++ [.world (.forgePriceFeed feed c.forgery)])) M c) := by
  intro c _ htype
  refine ⟨(run_feedStored hs as).authentic htype, fun hforgeable => ?_⟩
  have hlies : ∃ feed, ¬ Authentic (updates rt s as) (next (Action.exec rt) (run rt s as)
      (.world (.forgePriceFeed feed c.forgery))) M c := hforgeable.not_authentic htype
  obtain ⟨feed, hforged⟩ := hlies
  refine ⟨feed, ?_⟩
  have hnone : updates rt s (as ++ [.world (.forgePriceFeed feed c.forgery)]) =
      updates rt s as := by
    rw [updates, history_append, history_of_ok rfl]
    exact List.append_nil _
  rwa [hnone, run, run_append]

namespace Market

/-- The oracle is a custom feed, pinned to `target`, and the authority stores a price of 3. -/
def quoting (target : Pubkey) : List Action :=
  opening 1000 ++ timelockedFor adminOpSetOracleConfig oracleCustom.toUInt64 target 1 ++
    [ .call (day 2) (.initCustomPriceFeed asAuthority),
      .call (day 2) (.updateCustomPrice asAuthority 3 0 0) ]

/-- The user makes an account that names the authority and holds a price of 7. -/
def forgedQuote : Action :=
  .world (.forgePriceFeed user
    { authority := authority.key, price := 7, lastUpdateUnixTimestamp := (day 2).unixTimestamp })

end Market

open Market in
/-- Pinned to the account of the program, the oracle answers 3. -/
theorem custom_feed_authentic_pinned :
    ∃ c, (run localRuntime genesis (quoting (.customPriceFeed mint.key))).configs config = some c ∧
      (getOraclePrice localRuntime (day 2)
        (run localRuntime genesis (quoting (.customPriceFeed mint.key)))
        (.customPriceFeed mint.key) c).toOption = some { price := 3, conf := 0, expo := 0 } ∧
      Authentic (updates localRuntime genesis (quoting (.customPriceFeed mint.key)))
        (run localRuntime genesis (quoting (.customPriceFeed mint.key))) mint.key c := by
  have hconfig : ((run localRuntime genesis (quoting (.customPriceFeed mint.key))).configs
      config).map (fun c => (c.oracleType, c.oracleFeed, (getOraclePrice localRuntime (day 2)
        (run localRuntime genesis (quoting (.customPriceFeed mint.key)))
        (.customPriceFeed mint.key) c).toOption)) =
      some (oracleCustom, .customPriceFeed mint.key,
        some { price := 3, conf := 0, expo := 0 }) := by decide +kernel
  obtain ⟨c, hc, hread⟩ := Option.map_eq_some_iff.mp hconfig
  simp only [Prod.mk.injEq] at hread
  obtain ⟨htype, hfeed, hprice⟩ := hread
  exact ⟨c, hc, hprice, (custom_feed_authentic rfl _ c hc htype).1 hfeed⟩

open Market in
/-- Pinned to nothing, it answers 7, which nobody has stored. -/
theorem custom_feed_forged :
    Genesis genesis ∧ ∃ c,
      (run localRuntime genesis (quoting .default ++ [forgedQuote])).configs config = some c ∧
      c.oracleType = oracleCustom ∧
      (getOraclePrice localRuntime (day 2)
        (run localRuntime genesis (quoting .default ++ [forgedQuote])) user.key c).toOption =
        some { price := 7, conf := 0, expo := 0 } ∧
      ¬ Authentic (updates localRuntime genesis (quoting .default ++ [forgedQuote]))
        (run localRuntime genesis (quoting .default ++ [forgedQuote])) mint.key c := by
  have hconfig : ((run localRuntime genesis (quoting .default ++ [forgedQuote])).configs
      config).map (fun c => (c.oracleType, (getOraclePrice localRuntime (day 2)
        (run localRuntime genesis (quoting .default ++ [forgedQuote])) user.key c).toOption)) =
      some (oracleCustom, some { price := 7, conf := 0, expo := 0 }) := by
    decide +kernel
  obtain ⟨c, hc, hread⟩ := Option.map_eq_some_iff.mp hconfig
  obtain ⟨htype, hprice⟩ := Prod.mk.inj hread
  refine ⟨genesis_genesis, c, hc, htype, hprice, fun hauthentic => ?_⟩
  cases hread : getOraclePrice localRuntime (day 2)
      (run localRuntime genesis (quoting .default ++ [forgedQuote])) user.key c with
  | error e =>
    rw [hread] at hprice
    cases hprice
  | ok p => cases (hauthentic localRuntime (day 2) user.key p hread).1

end SolanaStablecoin
