import Academy.Settings.Value

/-!
# The environment

A variable whose name begins with `EDU_SEED__` gives a setting, in letters
of either case; two underscores separate the levels of the rest. Its text
is taken for a truth value or a number if it reads as one.
-/

namespace Academy

/-- **The variables of the environment** with their texts. -/
abbrev Environment := List (String × String)

namespace Environment

/-- What the names of settings begin with. -/
def namePrefix : String := "edu_seed__"

/-- Two underscores made a dot. -/
def withDots : List Char → List Char
  | '_' :: '_' :: s => '.' :: withDots s
  | c :: s => c :: withDots s
  | [] => []

/-- The name of the setting that a variable gives, if it gives one. -/
def settingName? (name : String) : Option String :=
  (namePrefix.toList.isPrefixOf? (lowercase name.toList)).map fun rest =>
    String.ofList (withDots rest)

/-- **The value of a text.** -/
def valueOf (text : String) : SettingValue :=
  let word := String.ofList (lowercase text.toList)
  if word = "true" then .bool true
  else if word = "false" then .bool false
  else
    match intOfText? text.toList with
    | some n => .integer n
    | none =>
      match Binary64.ofText? text.toList with
      | some x => .real x
      | none => .text text

/-- **The settings that the environment gives**, by name. -/
def settings (env : Environment) : List (String × SettingValue) :=
  env.filterMap fun (name, text) =>
    (settingName? name).map fun setting => (setting, valueOf text)

end Environment

end Academy
