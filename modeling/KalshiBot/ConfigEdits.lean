import KalshiBot.Config

/-! # Edits of the environment

Variables are edited between one start and the next. Orders are permitted on production only once
two of them say so, and what only production reads does not reach a process on demo.
-/

namespace KalshiBot

open PythonText

set_option autoImplicit false

abbrev Edit := String × Option String

/-- The variables after some edits, each of which sets or removes one. -/
def edited (env : Env) (edits : List Edit) : Env :=
  edits.foldl (fun env edit => Function.update env edit.1 edit.2) env

theorem edited_concat (env : Env) (edits : List Edit) (edit : Edit) :
    edited env (edits ++ [edit]) = Function.update (edited env edits) edit.1 edit.2 :=
  List.foldl_concat _ _ _ _

theorem edit_of_edited {env : Env} {edits : List Edit} {name : String} {value : Option String}
    (h : edited env edits name = value) : env name = value ∨ (name, value) ∈ edits := by
  induction edits using List.reverseRecOn with
  | nil => exact .inl h
  | append_singleton edits edit ih =>
    rw [edited_concat] at h
    obtain rfl | hOther := eq_or_ne name edit.1
    · rw [Function.update_self] at h
      subst h
      exact .inr (List.mem_append_right _ List.mem_cons_self)
    · rw [Function.update_of_ne hOther] at h
      exact (ih h).imp_right (List.mem_append_left _)

theorem edited_of_not_mem {env : Env} {edits : List Edit} {name : String}
    (h : ∀ edit ∈ edits, edit.1 ≠ name) : edited env edits name = env name := by
  induction edits using List.reverseRecOn with
  | nil => rfl
  | append_singleton edits edit ih =>
    rw [edited_concat, Function.update_of_ne (h edit (by simp)).symm]
    exact ih fun earlier hMem => h earlier (List.mem_append_left _ hMem)

variable {F : Type}

section Guards

theorem KalshiBotConfig.assertDemoTradingProcess_eq_ok {config : KalshiBotConfig F} :
    config.assertDemoTradingProcess = .ok () ↔ config.environment = .demo := by
  rw [assertDemoTradingProcess]
  split
  next hOther => exact iff_of_false nofun hOther
  next hDemo => exact iff_of_true rfl (not_not.mp hDemo)

theorem KalshiBotConfig.assertOrdersPermitted_eq_ok {config : KalshiBotConfig F} :
    config.assertOrdersPermitted = .ok () ↔
      (config.environment = .prod → config.allowProductionOrders = true) := by
  rw [assertOrdersPermitted]
  split
  next hRefused => exact iff_of_false nofun fun hArmed => hRefused.2 (hArmed hRefused.1)
  next hPermitted => exact iff_of_true rfl fun hProd => by_contra fun h => hPermitted ⟨hProd, h⟩

/-- The two readings that the guards look at. -/
theorem guards_of_loadConfig {toFloat : String → Option F} {env : Env} {config : KalshiBotConfig F}
    (hLoad : loadConfig toFloat env = .ok config) :
    readEnvironment env = .ok config.environment ∧
      config.allowProductionOrders = isTruthy (env.get "KALSHI_ALLOW_PRODUCTION_ORDERS" "") := by
  obtain ⟨environment, hEnvironment, h⟩ := bind_eq_ok.mp hLoad
  iterate 17 obtain ⟨_, -, h⟩ := bind_eq_ok.mp h
  obtain rfl := Except.ok.inj h
  dsimp only
  exact ⟨hEnvironment, rfl⟩

theorem prod_of_readEnvironment {env : Env} (h : readEnvironment env = .ok .prod) :
    env "KALSHI_ENVIRONMENT" = some "prod" := by
  rw [readEnvironment, oneOf] at h
  cases hFind : [Environment.demo, .prod].find? fun value =>
      value.text = env.get "KALSHI_ENVIRONMENT" "demo" with
  | none =>
    rw [hFind] at h
    cases h
  | some value =>
    rw [hFind] at h
    obtain rfl := Except.ok.inj h
    have hFound := List.find?_some hFind
    have hText : "prod" = env.get "KALSHI_ENVIRONMENT" "demo" := of_decide_eq_true hFound
    cases hSet : env "KALSHI_ENVIRONMENT" with
    | none =>
      rw [Env.get, hSet] at hText
      exact absurd hText (by decide)
    | some text =>
      rw [Env.get, hSet] at hText
      exact congrArg some hText.symm

theorem exists_of_truthy {env : Env} {name : String} (h : isTruthy (env.get name "") = true) :
    ∃ text, isTruthy text = true ∧ env name = some text := by
  cases hSet : env name with
  | none =>
    rw [Env.get, hSet] at h
    exact absurd h (by decide)
  | some text =>
    rw [Env.get, hSet] at h
    exact ⟨text, h, rfl⟩

/-- Both variables that arm production hold what arms it, from the beginning or since an edit. -/
structure Armed (env : Env) (edits : List Edit) : Prop where
  selected : env "KALSHI_ENVIRONMENT" = some "prod" ∨ ("KALSHI_ENVIRONMENT", some "prod") ∈ edits
  allowed : ∃ text, isTruthy text = true ∧ (env "KALSHI_ALLOW_PRODUCTION_ORDERS" = some text ∨
    ("KALSHI_ALLOW_PRODUCTION_ORDERS", some text) ∈ edits)

def armingEdits : List Edit :=
  [("KALSHI_ALLOW_PRODUCTION_ORDERS", some "no"), ("KALSHI_ENVIRONMENT", some "prod"),
    ("KALSHI_ALLOW_PRODUCTION_ORDERS", some " True")]

theorem exists_of_any {α : Type} {result : Except String α} {P : α → Bool}
    (h : result.toOption.any P = true) : ∃ value, result = .ok value ∧ P value = true := by
  cases result with
  | error message => cases h
  | ok value => exact ⟨value, rfl, h⟩

end Guards

/-- What only production reads: its hosts, its credentials and the switch that arms it. -/
def productionVariables : List String :=
  ["KALSHI_PROD_API_KEY_ID", "KALSHI_PROD_PRIVATE_KEY_PATH", "KALSHI_PROD_BASE_URL",
    "KALSHI_PROD_WS_URL", "KALSHI_ALLOW_PRODUCTION_ORDERS"]

/-- Where a process connects to and what it signs with. -/
structure Endpoint where
  restUrl : String
  wsUrl : String
  apiKeyId : String
  privateKeyPath : PosixPath

def KalshiBotConfig.endpoint (config : KalshiBotConfig F) : Endpoint :=
  ⟨config.baseUrl, config.wsUrl, config.resolvedApiKeyId, config.resolvedPrivateKeyPath⟩

/-- The configuration with nothing in it that only production reads. -/
def KalshiBotConfig.withoutProduction (config : KalshiBotConfig F) : KalshiBotConfig F :=
  { config with
    prodApiKeyId := ""
    prodPrivateKeyPath := .of ""
    prodBaseUrl := ""
    prodWsUrl := ""
    allowProductionOrders := false }

/-- On demo nothing of an endpoint comes from what only production reads. -/
theorem KalshiBotConfig.endpoint_withoutProduction {config : KalshiBotConfig F}
    (hDemo : config.environment = .demo) : config.withoutProduction.endpoint = config.endpoint := by
  simp only [endpoint, baseUrl, wsUrl, resolvedApiKeyId, resolvedPrivateKeyPath, withoutProduction,
    hDemo, reduceCtorEq, if_false]

theorem withoutProduction_loadConfig (toFloat : String → Option F) (env env' : Env)
    (hSame : ∀ name, name ∉ productionVariables → env name = env' name) :
    KalshiBotConfig.withoutProduction <$> loadConfig toFloat env =
      KalshiBotConfig.withoutProduction <$> loadConfig toFloat env' := by
  have hGet : ∀ name default, name ∉ productionVariables →
      env.get name default = env'.get name default := by
    intro name default hName
    rw [Env.get, Env.get, hSame name hName]
  simp (disch := decide) only [loadConfig, map_bind, map_pure, KalshiBotConfig.withoutProduction,
    readEnvironment, readTimeInForce, readSelfTradePreventionType, readAllowedIndexes, readInt,
    readFloat, readPath, hGet]

/-- Edits of what only production reads change nothing else of what is loaded, nor whether it is
loaded; and a process on demo gets the endpoint it would have got, and passes both guards. -/
theorem demo_unmoved {toFloat : String → Option F} {env : Env} {edits : List Edit}
    (hEdits : ∀ edit ∈ edits, edit.1 ∈ productionVariables) :
    KalshiBotConfig.withoutProduction <$> loadConfig toFloat (edited env edits) =
        KalshiBotConfig.withoutProduction <$> loadConfig toFloat env ∧
      ∀ config, loadConfig toFloat env = .ok config → config.environment = .demo →
        ∃ config', loadConfig toFloat (edited env edits) = .ok config' ∧
          config'.endpoint = config.endpoint ∧ config'.assertOrdersPermitted = .ok () ∧
            config'.assertDemoTradingProcess = .ok () := by
  have hLoads := withoutProduction_loadConfig toFloat (edited env edits) env
    fun name hName => edited_of_not_mem fun edit hMem hSame => hName (hSame ▸ hEdits edit hMem)
  refine ⟨hLoads, fun config hLoad hDemo => ?_⟩
  cases hLoad' : loadConfig toFloat (edited env edits) with
  | error message =>
    rw [hLoad, hLoad'] at hLoads
    cases hLoads
  | ok config' =>
    rw [hLoad, hLoad'] at hLoads
    have hConfig : config'.withoutProduction = config.withoutProduction := Except.ok.inj hLoads
    have hDemo' : config'.environment = .demo :=
      (congrArg KalshiBotConfig.environment hConfig).trans hDemo
    refine ⟨config', rfl, ?_, ?_, ?_⟩
    · rw [← KalshiBotConfig.endpoint_withoutProduction hDemo', hConfig,
        KalshiBotConfig.endpoint_withoutProduction hDemo]
    · exact KalshiBotConfig.assertOrdersPermitted_eq_ok.mpr fun hProd =>
        absurd (hDemo'.symm.trans hProd) nofun
    · exact KalshiBotConfig.assertDemoTradingProcess_eq_ok.mpr hDemo'

def demoEnv : Env := fun name =>
  if name = "KALSHI_DEMO_BASE_URL" then some "https://external-api.demo.kalshi.co" else none

def productionEdits : List Edit :=
  [("KALSHI_PROD_BASE_URL", some "https://external-api.kalshi.com"),
    ("KALSHI_ALLOW_PRODUCTION_ORDERS", some "true"), ("KALSHI_PROD_API_KEY_ID", some "key-prod")]

theorem demo_unmoved_by_production :
    ∃ config config', loadConfig parseFloat demoEnv = .ok config ∧
      loadConfig parseFloat (edited demoEnv productionEdits) = .ok config' ∧
        config'.endpoint = config.endpoint ∧ config'.assertOrdersPermitted = .ok () ∧
          config'.assertDemoTradingProcess = .ok () := by
  have hLoads : (loadConfig parseFloat demoEnv).toOption.any
      (fun config => config.environment = .demo) = true := by
    decide +kernel
  obtain ⟨config, hLoad, hDemo⟩ := exists_of_any hLoads
  have hEdits : ∀ edit ∈ productionEdits, edit.1 ∈ productionVariables := by decide
  obtain ⟨config', hLoad', hUnmoved⟩ :=
    (demo_unmoved hEdits).2 config hLoad (of_decide_eq_true hDemo)
  exact ⟨config, config', hLoad, hLoad', hUnmoved⟩

end KalshiBot
