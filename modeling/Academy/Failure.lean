import Academy.Files.Tree
import Academy.Integrity
import Academy.Random.Draw
import Academy.Settings.Basic

/-!
# Failures

Everything that can stop a run, by its cause. What is said about a
failure begins with the path or the number that it is about; a failure of
the system is then told in its own words.
-/

namespace Academy

/-- **Why something cannot be done.** -/
inductive Failure
  /-- A file cannot be used. -/
  | file (path : Path) (fault : FileFault)
  /-- A record cannot be written to a file. -/
  | write (path : Path) (fault : FileFault)
  /-- A line of a file is no record. -/
  | record (path : Path) (line : Nat) (error : DecodeError)
  /-- There are no settings. -/
  | settings
  /-- The numbers of records cannot be met. -/
  | counts (error : CountsError)
  /-- A date lies before the calendar. -/
  | date
  /-- There is no room in memory. -/
  | memory
  /-- The records break rules. -/
  | integrity (violations : List (Violation Identifier))

/-- What is said about a file that cannot be used. -/
def FileFault.message : FileFault → String
  | notFound => "not found"
  | isDirectory => "is a directory"
  | notDirectory => "not a directory"
  | alreadyExists => "already exists"
  | storageFull => "no space left"
  | invalidData => "not a text"
  | invalidPath => "not a path"
  | tooLong => "too long a name"
  | tooManyLinks => "too many links"
  | other => "failed"

/-- The failure of what comes of settings. -/
def Failure.ofSettings : SettingsError → Failure
  | .unreadable => .settings
  | .counts error => .counts error
  | .memory => .memory

/-- The failure of a draw. -/
def Failure.ofDraw : DrawError → Failure
  | .beforeCalendar => .date
  | .memory => .memory

namespace Failure

/-- Whether a run is given up because of the failure: it is one that no
settings and no files account for. -/
def givesUp : Failure → Bool
  | date => true
  | memory => true
  | _ => false

/-- What is said first about a failure. -/
def heading : Failure → String
  | file path _ => "文件读写失败: " ++ path ++ ": "
  | write path _ => "写入记录失败: " ++ path ++ ": "
  | record path line _ => "JSON 解析失败: " ++ path ++ " 第 " ++ toString line ++ " 行: "
  | settings => "配置加载失败: "
  | counts error => "无效的配置: " ++ error.message
  | date => "无效的日期: "
  | memory => "内存不足: "
  | integrity violations => "数据一致性检查失败: " ++ toString violations.length ++ " 处违规"

/-- **What is said about a failure.** -/
def message (failure : Failure) : String :=
  failure.heading ++
    match failure with
    | file _ fault => fault.message
    | write _ fault => fault.message
    | record _ _ (.fault .truncated) => "unexpected end"
    | record _ _ (.fault .malformed) => "not JSON"
    | record _ _ error => error.message
    | settings => "unreadable"
    | date => "before the calendar"
    | memory => "too many records"
    | counts _ => ""
    | integrity _ => ""

end Failure

end Academy
