import Tollgate.Config.Yaml

/-!
# The configuration file

Loading, where a missing file stands for the defaults and the environment has
the last word, and saving, which makes the directory if need be.
-/

namespace Tollgate

inductive ConfigFile where
  | absent
  | directory
  | document (text : String)
deriving DecidableEq, Repr

namespace ConfigFile

def pathBelow (directory : String) : String := directory ++ "/relaycast/config.yaml"

def loadMessage (path : String) : String := "加载配置文件失败: " ++ path

def saveMessage (directory : String) : String := "创建配置目录失败: " ++ directory

def load (f : ConfigFile) : Except ConfigFault Config :=
  match f with
  | .absent => .ok {}
  | .directory => .error .unreadable
  | .document text => Config.ofYaml text

/-- The configuration in force. The environment can make no valid configuration invalid. -/
def loadWith (f : ConfigFile) (environment : String → Option String) :
    Except ConfigFault Config := do
  return (← f.load).withEnvironment environment

def save? (config : Config) (obstructed : Bool) : Option ConfigFile :=
  if obstructed then none else some (.document config.toYaml)

end ConfigFile

end Tollgate
