/-!
The style sheet of the dark theme.
-/

namespace ThrustBench.Theme

def darkSheet : String :=
  String.join [
    "QFrame \x7b\n",
    "    background-color: #1e1e1e;\n",
    "\x7d\n",
    "\n",
    "QLabel \x7b\n",
    "    color: #eee;\n",
    "    font-size: 10pt;\n",
    "    font-family: \"Roboto\";\n",
    "\x7d\n",
    "\n",
    "QLabel#large \x7b\n",
    "    color: #eee;\n",
    "    font-size: 20pt;\n",
    "    font-family: \"Roboto\";\n",
    "\x7d\n",
    "\n",
    "QComboBox \x7b\n",
    "    background-color: #3e3e3e;\n",
    "    color: #ddd;\n",
    "    border: 1px solid #555;\n",
    "    border-radius: 4px;\n",
    "    min-width: 50px;\n",
    "    font-size: 10pt;\n",
    "    font-family: \"Roboto\";\n",
    "\x7d\n",
    "\n",
    "QComboBox::drop-down \x7b\n",
    "    subcontrol-origin: padding;\n",
    "    subcontrol-position: top right;\n",
    "    width: 20px;\n",
    "    border-left: 1px solid #555;\n",
    "    background-color: #454545;\n",
    "\x7d\n",
    "\n",
    "QComboBox::down-arrow \x7b\n",
    "    image: url(icons/down-triangle.png);\n",
    "    width: 12px;\n",
    "    height: 12px;\n",
    "\x7d\n",
    "\n",
    "QComboBox:disabled \x7b\n",
    "    background-color: #2e2e2e;  /* Darker background */\n",
    "    color: #777;               /* Faded text color */\n",
    "    border: 1px solid #444;    /* Slightly dimmer border */\n",
    "\x7d\n",
    "\n",
    "QComboBox:disabled::drop-down \x7b\n",
    "    background-color: #333;    /* Muted button color */\n",
    "    border-left: 1px solid #444;\n",
    "\x7d\n",
    "\n",
    "QComboBox QAbstractItemView \x7b\n",
    "    background-color: #2e2e2e;\n",
    "    border: 1px solid #555;\n",
    "    selection-background-color: #5e5e5e;\n",
    "    selection-color: #fff;\n",
    "    color: #eee;\n",
    "    padding: 2px;\n",
    "    outline: 0;\n",
    "\x7d\n",
    "\n",
    "QComboBox QAbstractItemView::item \x7b\n",
    "    padding: 4px 8px;\n",
    "    color: #00ff00;\n",
    "\x7d\n",
    "QComboBox QAbstractItemView::item:selected \x7b\n",
    "    background-color: #666;\n",
    "    color: #fff;\n",
    "\x7d\n",
    "QComboBox QAbstractItemView::item:hover \x7b\n",
    "    background-color: #555;\n",
    "\x7d\n",
    "\n",
    "QPlainTextEdit#console \x7b\n",
    "    background-color:  #1e1e1e;       /* editor background */\n",
    "    color:             #eee;       /* default text */\n",
    "    font-family:       \"Consolas\", \"Courier New\", monospace;\n",
    "    font-size:         10pt;\n",
    "    border:            1px solid #3c3c3c;\n",
    "    border-radius:     4px;\n",
    "    padding:           6px;           /* internal padding */\n",
    "\x7d\n",
    "\n",
    "QPlainTextEdit \x7b\n",
    "    background-color:  #1e1e1e;       /* editor background */\n",
    "    color:             #eee;       /* default text */\n",
    "    font-family:       \"Consolas\", \"Courier New\", monospace;\n",
    "    font-size:         10pt;\n",
    "    border:            1px solid #3c3c3c;\n",
    "    border-radius:     4px;\n",
    "    padding:           0px;           /* internal padding */\n",
    "\x7d\n",
    "\n",
    "/* scrollbars */\n",
    "QScrollBar:vertical \x7b\n",
    "    background:        #2e2e2e;\n",
    "    width:             10px;\n",
    "    margin:            0px;\n",
    "    border-radius:     5px;\n",
    "\x7d\n",
    "\n",
    "QScrollBar::handle:vertical \x7b\n",
    "    background:        #4e4e4e;\n",
    "    min-height:        20px;\n",
    "    border-radius:     5px;\n",
    "\x7d\n",
    "QScrollBar::handle:vertical:hover \x7b\n",
    "    background:        #5e5e5e;\n",
    "\x7d\n",
    "QScrollBar::handle:vertical:pressed \x7b\n",
    "    background:        #3e3e3e;\n",
    "\x7d\n",
    "\n",
    "QScrollBar::sub-line:vertical,\n",
    "QScrollBar::add-line:vertical \x7b\n",
    "    background:        none;\n",
    "    height:            0px;\n",
    "    subcontrol-origin: margin;\n",
    "\x7d\n",
    "QScrollBar::sub-page:vertical,\n",
    "QScrollBar::add-page:vertical \x7b\n",
    "    background:        none;\n",
    "\x7d\n",
    "\n",
    "QScrollBar:horizontal \x7b\n",
    "    background:        #2e2e2e;\n",
    "    height:             10px;\n",
    "    margin:            0px;\n",
    "    border-radius:     5px;\n",
    "\x7d\n",
    "\n",
    "QScrollBar::handle:horizontal \x7b\n",
    "    background:        #4e4e4e;\n",
    "    min-height:        20px;\n",
    "    border-radius:     5px;\n",
    "\x7d\n",
    "QScrollBar::handle:horizontal:hover \x7b\n",
    "    background:        #5e5e5e;\n",
    "\x7d\n",
    "QScrollBar::handle:horizontal:pressed \x7b\n",
    "    background:        #3e3e3e;\n",
    "\x7d\n",
    "\n",
    "QScrollBar::sub-line:horizontal,\n",
    "QScrollBar::add-line:horizontal \x7b\n",
    "    background:        none;\n",
    "    height:            0px;\n",
    "    subcontrol-origin: margin;\n",
    "\x7d\n",
    "QScrollBar::sub-page:horizontal,\n",
    "QScrollBar::add-page:horizontal \x7b\n",
    "    background:        none;\n",
    "\x7d\n",
    "/* scrollbars */\n",
    "\n",
    "QPushButton \x7b\n",
    "    color: #eee;\n",
    "    background: #3e3e3e;\n",
    "    text-align: center;\n",
    "    font-size: 10pt;\n",
    "    font-family: \"Roboto\";\n",
    "    border: 1px solid #555;\n",
    "    border-radius: 4px;\n",
    "    padding: 4px;\n",
    "\x7d\n",
    "\n",
    "QPushButton:hover \x7b\n",
    "    background: #555;\n",
    "\x7d\n",
    "\n",
    "QPushButton#greenBtn \x7b\n",
    "    color: #eee;\n",
    "    background: #48655a;\n",
    "    text-align: center;\n",
    "    font-size: 10pt;\n",
    "    font-family: \"Roboto\";\n",
    "    border: 1px solid #555;\n",
    "    border-radius: 4px;\n",
    "    padding: 4px;\n",
    "\x7d\n",
    "\n",
    "QFrame#panel \x7b\n",
    "    background-color: #1e1e1e;\n",
    "    border: 1px solid #555;\n",
    "    border-radius: 4px;\n",
    "\x7d\n",
    "\n",
    "QLineEdit \x7b\n",
    "    background-color:  #1e1e1e;       /* editor background */\n",
    "    color:             #eee;       /* default text */\n",
    "    font-family:       \"Consolas\", \"Courier New\", monospace;\n",
    "    font-size:         10pt;\n",
    "    border:            1px solid #3c3c3c;\n",
    "    border-radius:     4px;\n",
    "    padding:           6px;           /* internal padding */\n",
    "\x7d\n",
    "\n",
    "/* Table view */\n",
    "QTableView \x7b\n",
    "    background-color: #1e1e1e;       /* main table background */\n",
    "    color: #eee;                  /* text color */\n",
    "    gridline-color: #444444;\n",
    "    selection-background-color: #3d6fb4;\n",
    "    selection-color: #ffffff;\n",
    "    border: 1px solid #444444;\n",
    "    border-radius:     4px;\n",
    "    font-size: 14px;\n",
    "    outline: 0;\n",
    "\x7d\n",
    "\n",
    "QHeaderView::section \x7b\n",
    "    background-color: #555555;       /* header background */\n",
    "    color: #eee;\n",
    "    padding: 4px;\n",
    "    border: 1px solid #444444;\n",
    "    font-weight: bold;\n",
    "\x7d\n",
    "\n",
    "QHeaderView \x7b\n",
    "    background-color: #1e1e1e;       /* header background */\n",
    "\x7d\n",
    "\n",
    "QTableCornerButton::section \x7b\n",
    "    background-color: #555555;\n",
    "    border: 1px solid #444444;\n",
    "\x7d\n",
    "/* Table view */\n",
    "\n",
    "/* Checkbox */\n",
    "QCheckBox \x7b\n",
    "    color: #f0f0f0;\n",
    "    font-size: 14px;\n",
    "\x7d\n",
    "\n",
    "QCheckBox::indicator \x7b\n",
    "    width: 14px;\n",
    "    height: 14px;\n",
    "\x7d\n",
    "\n",
    "QCheckBox::indicator:unchecked \x7b\n",
    "    border: 2px solid #555;\n",
    "    background-color: #1e1e1e;\n",
    "    border-radius: 4px;\n",
    "\x7d\n",
    "\n",
    "QCheckBox::indicator:unchecked:hover \x7b\n",
    "    border: 2px solid #555;\n",
    "    background-color: #555555;\n",
    "\x7d\n",
    "\n",
    "QCheckBox::indicator:checked \x7b\n",
    "    border: 2px solid #638b7c;\n",
    "    background-color: #48655a;\n",
    "    border-radius: 4px;\n",
    "    image: url(:/icons/checkmark_white.png); /* optional custom check icon */\n",
    "\x7d\n",
    "\n",
    "QCheckBox::indicator:checked:hover \x7b\n",
    "    border: 2px solid #638b7c;\n",
    "    background-color: #638b7c;\n",
    "\x7d\n",
    "/* Checkbox */\n",
    "\n",
    "/* QSplitter */\n",
    "QSplitter \x7b\n",
    "    background-color: #1e1e1e;      /* Dark background */\n",
    "    border: none;\n",
    "    padding: 0;\n",
    "\x7d\n",
    "\n",
    "QSplitter::handle \x7b\n",
    "    background-color: #2b2b2b;      /* Dark gray handle */\n",
    "    border: 1px solid #3a3a3a;      /* Subtle border for separation */\n",
    "\x7d\n",
    "\n",
    "QSplitter::handle:horizontal \x7b\n",
    "    height: 6px;                    /* Thicker handle for better usability */\n",
    "    margin: 0 2px;\n",
    "\x7d\n",
    "\n",
    "QSplitter::handle:vertical \x7b\n",
    "    width: 6px;                     /* Same for vertical */\n",
    "    margin: 2px 0;\n",
    "\x7d\n",
    "\n",
    "QSplitter::handle:hover \x7b\n",
    "    background-color: #3c3c3c;      /* Highlight when hovering */\n",
    "    border: 1px solid #4a4a4a;\n",
    "\x7d\n",
    "\n",
    "QSplitter::handle:pressed \x7b\n",
    "    background-color: #555555;      /* Active drag state */\n",
    "    border: 1px solid #666666;\n",
    "\x7d\n",
    "/* QSplitter */\n",
    "\n",
    "/* QSlider */\n",
    "QSlider \x7b\n",
    "    background-color: transparent;\n",
    "    padding: 6px;\n",
    "\x7d\n",
    "/* QSlider */\n"]

end ThrustBench.Theme
