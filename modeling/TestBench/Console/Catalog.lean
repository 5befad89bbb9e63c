import TestBench.Locale
import TestBench.Text.Template
/-!
# The catalog of messages

The template of each message in each language.
-/
namespace TestBench.Console

inductive Message where
  | usage
  | usageTargets
  | about
  | planArgument
  | targetArgument
  | configArgument
  | languageArgument
  | unknownTarget
  | loadingPlan
  | logDirectory
  | resultsFile
  | startedAt
  | rowBanner
  | rowLine
  | malformedRow
  | commandMark
  | testDuration
  | notExecuted
  | exitedUncleanly
  | timedOut
  | spawnFailed
  | logFailed
  | shutdown
  | closingBanner
  | finishedAt
  | counts
  | runnerProblems
  | interrupted
  | totalDuration
deriving DecidableEq, Repr

namespace Message

def english : Message → String
  | .usage => "Usage: %\x7bprogram\x7d <test_plan_file> <target>"
  | .usageTargets => "(valid targets: %\x7btargets\x7d)"
  | .about => "Runs a CSV test plan against a hardware target, one test at a time."
  | .planArgument =>
    "Path to the test plan (test,sub_test,param_a,param_b,enabled per line)"
  | .targetArgument => "Hardware target identifier (known: %\x7btargets\x7d)"
  | .configArgument =>
    "Path to the run configuration file (defaults to RunPlan.toml when present)"
  | .languageArgument => "Language for output messages (e.g. en, zh-CN)"
  | .unknownTarget =>
    "Warning: '%\x7btarget\x7d' is not a known target (known: %\x7btargets\x7d); continuing anyway."
  | .loadingPlan => "Loading test plan: %\x7bpath\x7d"
  | .logDirectory => "Log directory: %\x7bpath\x7d"
  | .resultsFile => "Results file: %\x7bpath\x7d"
  | .startedAt => "Run started at %\x7btime\x7d"
  | .rowBanner => "===Test %\x7bnumber\x7d==="
  | .rowLine => "%\x7bname\x7d - %\x7bsub\x7d : %\x7bflag\x7d"
  | .malformedRow => "Error in test plan! %\x7bdetail\x7d"
  | .commandMark => "Command:"
  | .testDuration => "Test duration: %\x7bduration\x7d"
  | .notExecuted => "Recorded '%\x7bname\x7d' as NOT_EXECUTED"
  | .exitedUncleanly => "Warning: runner for '%\x7bname\x7d' exited with %\x7bstatus\x7d"
  | .timedOut => "Warning: runner for '%\x7bname\x7d' exceeded %\x7btimeout\x7ds and was killed"
  | .spawnFailed => "Warning: could not launch runner for '%\x7bname\x7d': %\x7berror\x7d"
  | .logFailed => "Warning: %\x7berror\x7d"
  | .shutdown => "Interrupt received, stopping before the next test..."
  | .closingBanner => "======================================"
  | .finishedAt => "Run finished at %\x7btime\x7d"
  | .counts =>
    "Tests: %\x7brows\x7d (executed: %\x7bexecuted\x7d, not executed: %\x7bnot_executed\x7d), malformed lines: %\x7bmalformed\x7d"
  | .runnerProblems => "Runners that did not exit cleanly: %\x7bcount\x7d"
  | .interrupted => "Run interrupted before the end of the plan."
  | .totalDuration => "Total duration: %\x7bduration\x7d"

def chinese : Message → String
  | .usage => "用法: %\x7bprogram\x7d <测试计划文件> <目标>"
  | .usageTargets => "（有效目标: %\x7btargets\x7d）"
  | .about => "针对硬件目标逐个运行 CSV 测试计划中的测试。"
  | .planArgument => "测试计划路径（每行: test,sub_test,param_a,param_b,enabled）"
  | .targetArgument => "硬件目标标识符（已知: %\x7btargets\x7d）"
  | .configArgument => "运行配置文件路径（存在时默认使用 RunPlan.toml）"
  | .languageArgument => "输出消息的语言（例如 en, zh-CN）"
  | .unknownTarget =>
    "警告: '%\x7btarget\x7d' 不是已知目标（已知: %\x7btargets\x7d），继续运行。"
  | .loadingPlan => "加载测试计划: %\x7bpath\x7d"
  | .logDirectory => "日志目录: %\x7bpath\x7d"
  | .resultsFile => "结果文件: %\x7bpath\x7d"
  | .startedAt => "运行开始于 %\x7btime\x7d"
  | .rowBanner => "===测试 %\x7bnumber\x7d==="
  | .rowLine => "%\x7bname\x7d - %\x7bsub\x7d : %\x7bflag\x7d"
  | .malformedRow => "测试计划有误！%\x7bdetail\x7d"
  | .commandMark => "命令:"
  | .testDuration => "测试耗时: %\x7bduration\x7d"
  | .notExecuted => "已将 '%\x7bname\x7d' 记录为 NOT_EXECUTED"
  | .exitedUncleanly => "警告: '%\x7bname\x7d' 的运行器以 %\x7bstatus\x7d 退出"
  | .timedOut => "警告: '%\x7bname\x7d' 的运行器超过 %\x7btimeout\x7d 秒，已被终止"
  | .spawnFailed => "警告: 无法启动 '%\x7bname\x7d' 的运行器: %\x7berror\x7d"
  | .logFailed => "警告: %\x7berror\x7d"
  | .shutdown => "收到中断信号，将在下一个测试之前停止..."
  | .closingBanner => "======================================"
  | .finishedAt => "运行结束于 %\x7btime\x7d"
  | .counts =>
    "测试: %\x7brows\x7d（已执行: %\x7bexecuted\x7d，未执行: %\x7bnot_executed\x7d），格式错误的行: %\x7bmalformed\x7d"
  | .runnerProblems => "未正常退出的运行器: %\x7bcount\x7d"
  | .interrupted => "运行在计划结束前被中断。"
  | .totalDuration => "总耗时: %\x7bduration\x7d"

def template : Locale → Message → String
  | .english => english
  | .chinese => chinese

def text (l : Locale) (m : Message) (values : List (String × String)) : String :=
  Template.fill (m.template l) values

end Message
end TestBench.Console
