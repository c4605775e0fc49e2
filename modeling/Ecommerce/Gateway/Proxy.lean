import Mathlib.Data.List.Find
/-!
# Gateway-service — the chain of proxies

`setupProxies` mounts five proxies, each with a filter on the pathname and
some with a rewrite; the first whose filter accepts a request forwards it.
What the rewrite leaves is handed to http-proxy, which joins it with the
path of the target; of that only `SendsPaths` is known.
`routedBySegment_iff` says for which paths all this is routing by the
first segment: a filter asks only for a beginning of the path, and also
accepts a first segment that goes on after the service's name.
-/

namespace Ecommerce

namespace Gateway

/-- The addresses of the services behind the gateway. -/
structure Targets where
  auth : String
  orders : String
  payments : String
  inventory : String
  catalog : String
deriving DecidableEq

/-- `process.env.NAME || fallback`: an empty value counts as none. -/
def orDefault (value : Option String) (fallback : String) : String :=
  match value with
  | some text => if text = "" then fallback else text
  | none => fallback

/-- The addresses an environment sets. -/
def targets (env : String → Option String) : Targets where
  auth := orDefault (env "AUTH_SERVICE_URL") "http://localhost:3004"
  orders := orDefault (env "ORDER_SERVICE_URL") "http://localhost:3001"
  payments := orDefault (env "PAYMENT_SERVICE_URL") "http://localhost:3002"
  inventory := orDefault (env "INVENTORY_SERVICE_URL") "http://localhost:3003"
  catalog := orDefault (env "CATALOG_SERVICE_URL") "http://localhost:3005"

/-- A rule of `pathRewrite`: the regular expression `^text`, and what its match is
replaced by. -/
structure RewriteRule where
  text : String
  value : String

/-- The options of `createProxyMiddleware` that decide where a request goes. -/
structure ProxyOptions where
  pathFilter : String → Bool
  target : String
  pathRewrite : List RewriteRule

/-- The path after a beginning of `n` characters. -/
def dropFirst (n : ℕ) (path : String) : String := String.ofList (path.toList.drop n)

/-- `pathRewrite` applied to a path: the first rule that matches. -/
def rewritePath : List RewriteRule → String → String
  | [], path => path
  | rule :: rest, path =>
    if path.startsWith rule.text then rule.value ++ dropFirst rule.text.toList.length path
    else rewritePath rest path

/-- `setupProxies`, in the order the middlewares are mounted. -/
def setupProxies (targets : Targets) : List ProxyOptions :=
  [{ pathFilter := fun path => path.startsWith "/auth"
     target := targets.auth
     pathRewrite := [] },
   { pathFilter := fun path => path.startsWith "/orders"
     target := targets.orders
     pathRewrite := [] },
   { pathFilter := fun path => path.startsWith "/payments"
     target := targets.payments
     pathRewrite := [⟨"/payments", ""⟩] },
   { pathFilter := fun path => path.startsWith "/inventory"
     target := targets.inventory
     pathRewrite := [⟨"/inventory", ""⟩] },
   { pathFilter := fun path => path.startsWith "/products"
     target := targets.catalog
     pathRewrite := [] }]

/-- A request on its way to a service. -/
structure Forwarded where
  target : String
  path : String
deriving DecidableEq

/-- What the chain does with a pathname: the first proxy whose filter accepts it
forwards it, rewritten. `join` is the path http-proxy sends to a target for a URL. -/
def forward (join : String → String → String) (proxies : List ProxyOptions) (path : String) :
    Option Forwarded :=
  (proxies.find? fun proxy => proxy.pathFilter path).map fun proxy =>
    ⟨proxy.target, join proxy.target (rewritePath proxy.pathRewrite path)⟩

/-! ## Joining -/

/-- A path nobody needs to normalise or to escape. -/
structure Plain (path : String) : Prop where
  rooted : path.startsWith "/"
  single : ¬ ['/', '/'] <:+: path.toList
  chars : ∀ c ∈ path.toList, c.isAlphanum ∨
    c ∈ ['-', '.', '_', '~', '%', '/', '!', '$', '&', '(', ')', '*', '+', ',', ';', '=', '@']

/-- **What http-proxy sends to a target that is an origin**, a URL without a path of its own. -/
structure SendsPaths (join : String → String → String) (target : String) : Prop where
  /-- It sends a path, whatever it is handed. -/
  slash : ∀ url, (join target url).startsWith "/"
  /-- For no path at all it sends the root. -/
  empty : join target "" = "/"
  /-- A plain path is sent as it is. -/
  plain : ∀ url, Plain url → join target url = url

/-! ## Segments -/

/-- The first segments that name a service. -/
inductive Segment
  | auth
  | orders
  | payments
  | inventory
  | products
deriving DecidableEq

namespace Segment

/-- The segments, in the order of the proxies. -/
def all : List Segment := [auth, orders, payments, inventory, products]

/-- The path that is the segment alone. -/
def path : Segment → String
  | auth => "/auth"
  | orders => "/orders"
  | payments => "/payments"
  | inventory => "/inventory"
  | products => "/products"

/-- Where a segment's requests belong. -/
def target (targets : Targets) : Segment → String
  | auth => targets.auth
  | orders => targets.orders
  | payments => targets.payments
  | inventory => targets.inventory
  | products => targets.catalog

/-- Whether the service knows its routes without the segment. -/
def stripped : Segment → Bool
  | payments => true
  | inventory => true
  | _ => false

/-- `path` is the segment, or goes on with `/` after it. -/
def Begins (seg : Segment) (path : String) : Prop :=
  path = seg.path ∨ path.startsWith (seg.path ++ "/")

/-- The path a service should be asked for: with the segment removed, and `/` if nothing
is left, where the service knows its routes without it. -/
def rest (seg : Segment) (path : String) : String :=
  if seg.stripped then
    if dropFirst seg.path.toList.length path = "" then "/"
    else dropFirst seg.path.toList.length path
  else path

/-- The proxy of a segment. -/
def proxy (targets : Targets) (seg : Segment) : ProxyOptions where
  pathFilter := fun path => path.startsWith seg.path
  target := seg.target targets
  pathRewrite := if seg.stripped then [⟨seg.path, ""⟩] else []

end Segment

/-- **Routing by the first segment.** -/
structure RoutedBySegment (join : String → String → String) (targets : Targets) (path : String) :
    Prop where
  /-- A path is forwarded if and only if its first segment names a service. -/
  forwarded_iff : (forward join (setupProxies targets) path).isSome ↔
    ∃ seg : Segment, seg.Begins path
  /-- At most one proxy accepts it. -/
  alone : ((setupProxies targets).filter fun proxy => proxy.pathFilter path).length ≤ 1
  /-- It goes to the segment's service. -/
  target_eq : ∀ f, forward join (setupProxies targets) path = some f →
    ∀ seg : Segment, seg.Begins path → f.target = seg.target targets
  /-- It arrives as the service knows it, written as http-proxy writes a path. -/
  path_eq : ∀ f, forward join (setupProxies targets) path = some f →
    ∀ seg : Segment, seg.Begins path → f.path = join (seg.target targets) (seg.rest path)
  /-- A plain path is written as it is. -/
  plain_eq : Plain path → ∀ f, forward join (setupProxies targets) path = some f →
    ∀ seg : Segment, seg.Begins path → f.path = seg.rest path
  /-- What is forwarded is a path. -/
  slash : ∀ f, forward join (setupProxies targets) path = some f → f.path.startsWith "/"

/-- No service's name is a mere beginning of the first segment. -/
def Segmented (path : String) : Prop :=
  ∀ seg : Segment, path.startsWith seg.path → seg.Begins path

section Proxies

variable {join : String → String → String} {tgts : Targets} {path : String} {seg seg' : Segment}

theorem setupProxies_eq (tgts : Targets) :
    setupProxies tgts = Segment.all.map (Segment.proxy tgts) := rfl

theorem startsWith_iff {text : String} : path.startsWith text ↔ text.toList <+: path.toList :=
  String.startsWith_string_iff

/-- No segment is the beginning of another. -/
theorem Segment.eq_of_isPrefix (h : seg.path.toList <+: seg'.path.toList) : seg = seg' := by
  revert h
  cases seg <;> cases seg' <;> decide

/-- **At most one filter accepts a path.** -/
theorem Segment.eq_of_startsWith (h : path.startsWith seg.path) (h' : path.startsWith seg'.path) :
    seg = seg' := by
  rw [startsWith_iff] at h h'
  rcases List.prefix_or_prefix_of_prefix h h' with hle | hle
  · exact eq_of_isPrefix hle
  · exact (eq_of_isPrefix hle).symm

theorem Segment.Begins.startsWith (h : seg.Begins path) : path.startsWith seg.path := by
  rw [startsWith_iff]
  rcases h with rfl | h
  · exact List.prefix_rfl
  · rw [startsWith_iff, String.toList_append] at h
    exact (List.prefix_append _ _).trans h

/-- A filter that accepts is the one of the segment. -/
theorem Segment.startsWith_eq (h : path.startsWith seg.path) (seg' : Segment) :
    path.startsWith seg'.path = decide (seg' = seg) := by
  by_cases heq : seg' = seg
  · rw [heq, h, decide_eq_true rfl]
  · rw [decide_eq_false heq, Bool.eq_false_iff]
    exact fun h' => heq (eq_of_startsWith h' h)

theorem filter_length_le_one (tgts : Targets) (path : String) :
    ((setupProxies tgts).filter fun proxy => proxy.pathFilter path).length ≤ 1 := by
  rw [setupProxies_eq, List.filter_map, List.length_map]
  change (Segment.all.filter fun seg : Segment => path.startsWith seg.path).length ≤ 1
  by_cases h : ∃ seg : Segment, path.startsWith seg.path
  · obtain ⟨seg, hseg⟩ := h
    rw [List.filter_congr fun s _ => Segment.startsWith_eq hseg s]
    cases seg <;> decide
  · rw [List.filter_eq_nil_iff.mpr fun s _ hs => h ⟨s, hs⟩]
    exact Nat.zero_le 1

/-- **A path that begins like a segment goes to its service**, whatever follows. -/
theorem forward_of_startsWith (h : path.startsWith seg.path) :
    forward join (setupProxies tgts) path = some ⟨seg.target tgts,
      join (seg.target tgts) (rewritePath (seg.proxy tgts).pathRewrite path)⟩ := by
  have hfind : (Segment.all.find? fun s : Segment => path.startsWith s.path) = some seg := by
    rw [List.find?_congr fun s _ => Segment.startsWith_eq h s]
    cases seg <;> decide
  rw [forward, setupProxies_eq, List.find?_map]
  change (Option.map _ (Segment.all.find? fun s : Segment => path.startsWith s.path)).map _ = _
  rw [hfind]
  rfl

/-- Any other is not forwarded. -/
theorem forward_of_not_startsWith (h : ∀ seg : Segment, ¬ path.startsWith seg.path) :
    forward join (setupProxies tgts) path = none := by
  rw [forward, setupProxies_eq, List.find?_map]
  change (Option.map _ (Segment.all.find? fun s : Segment => path.startsWith s.path)).map _ = none
  rw [List.find?_eq_none.mpr fun s _ hs => h s hs]
  rfl

/-- What the rewrite leaves. -/
theorem rewritePath_proxy (h : path.startsWith seg.path) :
    rewritePath (seg.proxy tgts).pathRewrite path =
      if seg.stripped then dropFirst seg.path.toList.length path else path := by
  unfold Segment.proxy
  cases hstripped : seg.stripped with
  | true =>
    simp only [if_true, rewritePath, h]
    exact String.empty_append
  | false => rfl

/-- A path that begins like a segment is the segment and a rest. -/
theorem exists_rest (h : path.startsWith seg.path) : ∃ rest, path = seg.path ++ rest := by
  obtain ⟨rest, hrest⟩ := startsWith_iff.mp h
  refine ⟨String.ofList rest, String.toList_inj.mp ?_⟩
  rw [String.toList_append, String.toList_ofList, hrest]

@[simp] theorem dropFirst_append (text rest : String) :
    dropFirst text.toList.length (text ++ rest) = rest := by
  rw [dropFirst, String.toList_append, List.drop_left, String.ofList_toList]

/-- Where the first segment ends. -/
theorem Segment.begins_append {rest : String} :
    seg.Begins (seg.path ++ rest) ↔ rest = "" ∨ rest.startsWith "/" := by
  refine or_congr ?_ ?_
  · rw [← String.toList_inj, ← String.toList_inj, String.toList_append]
    exact List.append_right_eq_self
  · rw [startsWith_iff, startsWith_iff, String.toList_append, String.toList_append]
    exact List.prefix_append_right_inj _

/-- What is left of a path with a rest is the rest. -/
theorem Segment.rest_append {rest : String} :
    seg.rest (seg.path ++ rest) =
      if seg.stripped then (if rest = "" then "/" else rest) else seg.path ++ rest := by
  rw [Segment.rest, dropFirst_append]

theorem plain_root : Plain "/" := by
  have hchars : "/".toList = ['/'] := by decide
  refine ⟨startsWith_iff.mpr List.prefix_rfl, ?_, fun c hc => .inr ?_⟩
  · rw [hchars]
    decide
  · rw [hchars] at hc
    obtain rfl := List.mem_singleton.mp hc
    simp

/-- What is left of a plain path is plain. -/
theorem Plain.rest (h : Plain path) (hbegins : seg.Begins path) : Plain (seg.rest path) := by
  obtain ⟨rest, rfl⟩ := exists_rest hbegins.startsWith
  rw [Segment.rest_append]
  split
  · split
    · exact plain_root
    · have hsuffix : rest.toList <:+ (seg.path ++ rest).toList := by
        rw [String.toList_append]
        exact List.suffix_append _ _
      exact ⟨(Segment.begins_append.mp hbegins).resolve_left ‹_›,
        fun hcon => h.single (hcon.trans hsuffix.isInfix),
        fun c hc => h.chars c (hsuffix.subset hc)⟩
  · exact h

/-- **A path arrives as the service knows it.** -/
theorem join_rewritePath (hjoin : SendsPaths join (seg.target tgts)) (h : seg.Begins path) :
    join (seg.target tgts) (rewritePath (seg.proxy tgts).pathRewrite path) =
      join (seg.target tgts) (seg.rest path) := by
  obtain ⟨rest, rfl⟩ := exists_rest h.startsWith
  rw [rewritePath_proxy h.startsWith, dropFirst_append, Segment.rest_append]
  split
  · split
    · rw [‹rest = ""›, hjoin.empty, hjoin.plain "/" plain_root]
    · rfl
  · rfl

end Proxies

/-- **The chain routes by the first segment on the segmented paths, and on no others**, if its
targets are origins. -/
theorem routedBySegment_iff (join : String → String → String) (tgts : Targets) (path : String)
    (hjoin : ∀ seg : Segment, SendsPaths join (seg.target tgts)) :
    RoutedBySegment join tgts path ↔ Segmented path := by
  constructor
  · -- What is forwarded begins with some segment, and no other accepts it.
    intro h seg hseg
    have hsome : (forward join (setupProxies tgts) path).isSome := by
      rw [forward_of_startsWith hseg]
      rfl
    obtain ⟨seg', hbegins⟩ := h.forwarded_iff.mp hsome
    rwa [Segment.eq_of_startsWith hseg hbegins.startsWith]
  · intro hbegins
    by_cases hsome : ∃ seg : Segment, path.startsWith seg.path
    · obtain ⟨seg, hseg⟩ := hsome
      have hbegin := hbegins seg hseg
      have hforward : forward join (setupProxies tgts) path = _ := forward_of_startsWith hseg
      rw [join_rewritePath (hjoin seg) hbegin] at hforward
      have hsame : ∀ seg' : Segment, seg'.Begins path → seg = seg' := fun seg' hseg' =>
        Segment.eq_of_startsWith hseg hseg'.startsWith
      refine ⟨⟨fun _ => ⟨seg, hbegin⟩, fun _ => by rw [hforward]; rfl⟩,
        filter_length_le_one tgts path, fun f hf seg' hseg' => ?_, fun f hf seg' hseg' => ?_,
        fun hplain f hf seg' hseg' => ?_, fun f hf => ?_⟩
      all_goals obtain rfl := Option.some.inj (hforward.symm.trans hf)
      · rw [hsame seg' hseg']
      · rw [hsame seg' hseg']
      · rw [← hsame seg' hseg']
        exact (hjoin seg).plain _ (hplain.rest hbegin)
      · exact (hjoin seg).slash _
    · have hnone : ∀ seg : Segment, ¬ path.startsWith seg.path := fun seg hseg => hsome ⟨seg, hseg⟩
      have hforward : forward join (setupProxies tgts) path = none :=
        forward_of_not_startsWith hnone
      refine ⟨⟨fun h => ?_, fun ⟨seg, hseg⟩ => absurd hseg.startsWith (hnone seg)⟩,
        filter_length_le_one tgts path, fun f hf => ?_, fun f hf => ?_, fun _ f hf => ?_,
        fun f hf => ?_⟩
      · rw [hforward] at h
        cases h
      all_goals
        rw [hforward] at hf
        cases hf

/-! ## The addresses of a development setup -/

/-- Slashes in a row are one. -/
def squeeze : List Char → List Char
  | [] => []
  | c :: rest => if c = '/' ∧ rest.head? = some '/' then squeeze rest else c :: squeeze rest

/-- A URL joined with the path `/` of an origin. -/
def joinRoot (_ url : String) : String := String.ofList (squeeze ('/' :: url.toList))

theorem squeeze_eq_self {l : List Char} (h : ¬ ['/', '/'] <:+: l) : squeeze l = l := by
  induction l with
  | nil => rfl
  | cons c rest ih =>
    rw [squeeze, if_neg, ih fun hcon => h (List.infix_cons hcon)]
    rintro ⟨rfl, hhead⟩
    obtain ⟨rest, rfl⟩ := List.head?_eq_some_iff.mp hhead
    exact h (List.infix_append [] ['/', '/'] rest)

theorem squeeze_rooted (l : List Char) : ['/'] <+: squeeze ('/' :: l) := by
  induction l with
  | nil => exact List.prefix_refl _
  | cons c rest ih =>
    rw [squeeze]
    split
    · rename_i h
      obtain rfl : c = '/' := Option.some.inj h.2
      exact ih
    · exact ⟨_, rfl⟩

theorem sendsPaths_joinRoot (target : String) : SendsPaths joinRoot target where
  slash url := by
    have hrooted := squeeze_rooted url.toList
    rwa [startsWith_iff, show (joinRoot target url).toList = squeeze ('/' :: url.toList) from
      String.toList_ofList]
  empty := rfl
  plain url h := by
    obtain ⟨rest, hrest⟩ := startsWith_iff.mp h.rooted
    change '/' :: rest = _ at hrest
    rw [joinRoot, ← hrest, squeeze, if_pos ⟨rfl, rfl⟩, hrest, squeeze_eq_self h.single,
      String.ofList_toList]

/-- `/payments` arrives as `/`. -/
theorem routedBySegment_of_payments :
    RoutedBySegment joinRoot (targets fun _ => none) "/payments" := by
  refine (routedBySegment_iff joinRoot _ "/payments" fun _ => sendsPaths_joinRoot _).mpr
    fun seg hseg => .inl ?_
  have hpayments : "/payments".startsWith Segment.payments.path := startsWith_iff.mpr (by decide)
  rw [Segment.eq_of_startsWith hseg hpayments]
  rfl

/-- A first segment that only begins with the name of a service is forwarded all the same. -/
theorem not_routedBySegment_of_longer :
    ¬ RoutedBySegment joinRoot (targets fun _ => none) "/paymentsx" := by
  intro h
  have hseg : "/paymentsx".startsWith Segment.payments.path := startsWith_iff.mpr (by decide)
  obtain ⟨seg, hbegins⟩ := h.forwarded_iff.mp (by rw [forward_of_startsWith hseg]; rfl)
  obtain rfl := Segment.eq_of_startsWith hseg hbegins.startsWith
  rcases hbegins with heq | hbegins
  · exact absurd heq (by decide)
  · exact absurd (startsWith_iff.mp hbegins) (by decide)

end Gateway

end Ecommerce
